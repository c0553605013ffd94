import RevenueOps.Reconcile

/-! One applied sweep brings every reservation that is not in flight to what its row stands for,
and a second sweep finds nothing left to resolve. -/
namespace ReconcileConvergence

open FallibleState JsonValue EconIntents EconLedger Reconcile

structure Corrects (db : DbStates) (d : Divergence) (e : LedgerEvent) : Prop where
  eventType : e.eventType = .reconciliationCompleted
  key : e.idempotencyKey = d.key
  reserved : e.amounts["reserved_msat"]? = some (dbTruth db[d.key]?)
  cost : e.amounts["cost_msat"]? = none

theorem correction_ok {db : DbStates} {d : Divergence} {now : ℤ} {r : Json} {e : LedgerEvent}
    (hd : Resolves db d) (hr : d.resolution = some r) (h : correction now d r = .ok e) :
    Corrects db d e := by
  obtain ⟨members, hdetails, -⟩ := hd.details
  have hres : r = reservedResolution (dbTruth db[d.key]?) := by
    simpa [hr] using hd.resolution
  subst hres
  have hamounts : ∀ m, valueToAmounts (reservedResolution (dbTruth db[d.key]?)) = .ok m →
      m = (∅ : Amounts).insert "reserved_msat" (dbTruth db[d.key]?) := by
    intro m hm
    simp only [valueToAmounts, reservedResolution, List.foldlM_cons, List.foldlM_nil,
      Json.asI64] at hm
    split_ifs at hm
    · exact (Except.ok.inj hm).symm
    · cases hm
  unfold correction at h
  simp only [hdetails] at h
  cases hm : valueToAmounts (reservedResolution (dbTruth db[d.key]?)) with
  | error err => simp [hm, bind, Except.bind] at h
  | ok m =>
    simp only [hm, bind, Except.bind, pure, Except.pure] at h
    obtain rfl := Except.ok.inj h
    rw [hamounts m hm]
    exact ⟨rfl, rfl, by simp, by simp⟩

structure Corrections (db : DbStates) (ds : List Divergence) (es : List LedgerEvent) : Prop where
  sound : ∀ e ∈ es, ∃ d ∈ ds, d.resolution ≠ none ∧ Corrects db d e
  complete : ∀ d ∈ ds, d.resolution ≠ none → ∃ e ∈ es, Corrects db d e

theorem Corrections.cons_none {db : DbStates} {d : Divergence} {ds : List Divergence}
    {es : List LedgerEvent} (hd : d.resolution = none) (h : Corrections db ds es) :
    Corrections db (d :: ds) es := by
  constructor
  · intro e he
    obtain ⟨d', hd', hres⟩ := h.sound e he
    exact ⟨d', by simp [hd'], hres⟩
  · intro d' hd' hres
    rcases List.mem_cons.mp hd' with rfl | hd'
    · exact absurd hd hres
    · exact h.complete d' hd' hres

theorem Corrections.cons_some {db : DbStates} {d : Divergence} {ds : List Divergence}
    {e : LedgerEvent} {es : List LedgerEvent} (hres : d.resolution ≠ none) (hd : Corrects db d e)
    (h : Corrections db ds es) : Corrections db (d :: ds) (e :: es) := by
  constructor
  · intro e' he'
    rcases List.mem_cons.mp he' with rfl | he'
    · exact ⟨d, by simp, hres, hd⟩
    · obtain ⟨d', hd', hres'⟩ := h.sound e' he'
      exact ⟨d', by simp [hd'], hres'⟩
  · intro d' hd' hres'
    rcases List.mem_cons.mp hd' with rfl | hd'
    · exact ⟨e, by simp, hd⟩
    · obtain ⟨e', he', hc⟩ := h.complete d' hd' hres'
      exact ⟨e', by simp [he'], hc⟩

theorem wp_appendEvent {e : LedgerEvent} {Q : Post Ledger EconError ℕ} {l : Ledger}
    (hok : ∀ id faults, Q.ok id ⟨l.events ++ [e], faults⟩)
    (herr : ∀ err faults, Q.err err ⟨l.events, faults⟩) : wp (appendEvent e) Q l := by
  unfold wp appendEvent
  by_cases hf : AppendFails e l
  · obtain ⟨err, faults, ha⟩ := append_fails hf
    simp only [ha]
    exact herr err faults
  · simp only [append_ok hf]
    exact hok _ _

/-- A returned step appended the correction of its divergence or passed it over. -/
theorem wp_applyDivergence {db : DbStates} {now : ℤ} {d : Divergence} (applied : ℕ) (l : Ledger)
    (hd : d.resolution = none ∨ Resolves db d) :
    wp (applyDivergence now applied d)
      ⟨fun _ l' => (d.resolution = none ∧ l'.events = l.events) ∨
          (d.resolution ≠ none ∧ ∃ e, l'.events = l.events ++ [e] ∧ Corrects db d e),
        fun _ _ => True, fun _ => True⟩ l := by
  unfold applyDivergence
  cases hr : d.resolution with
  | none => exact (wp_pure _ _ _).mpr (Or.inl ⟨rfl, rfl⟩)
  | some r =>
    have hres : Resolves db d := hd.resolve_left (by simp [hr])
    simp only [wp_bind, wp_ofExcept]
    refine ⟨fun e he => ?_, fun _ _ => trivial⟩
    refine (wp_bind _ _ _ _).mpr (wp_appendEvent ?_ ?_)
    · intro id faults
      exact (wp_pure _ _ _).mpr (Or.inr ⟨by simp, e, rfl, correction_ok hres hr he⟩)
    · exact fun _ _ => trivial

/-- A returned application appended the corrections of its divergences and nothing else. -/
theorem wp_apply {db : DbStates} {now : ℤ} {ds : List Divergence} (applied : ℕ) (l : Ledger)
    (hds : ∀ d ∈ ds, d.resolution = none ∨ Resolves db d) :
    wp (ds.foldlM (applyDivergence now) applied)
      ⟨fun _ l' => ∃ es, l'.events = l.events ++ es ∧ Corrections db ds es,
        fun _ _ => True, fun _ => True⟩ l := by
  induction ds generalizing applied l with
  | nil =>
    have hnone : Corrections db [] [] := ⟨by simp, by simp⟩
    exact (wp_pure _ _ _).mpr ⟨[], by simp, hnone⟩
  | cons d ds ih =>
    rw [List.foldlM_cons, wp_bind]
    refine wp_mono (wp_applyDivergence applied l (hds d (by simp))) ?_ (fun _ _ _ => trivial)
      fun _ _ => trivial
    intro applied' l₁ hstep
    refine wp_mono (ih applied' l₁ fun d' hd' => hds d' (by simp [hd'])) ?_
      (fun _ _ _ => trivial) fun _ _ => trivial
    rintro _ l₂ ⟨es, hes, hc⟩
    rcases hstep with ⟨hnone, hl⟩ | ⟨hsome, e, hl, he⟩
    · exact ⟨es, by rw [hes, hl], hc.cons_none hnone⟩
    · exact ⟨e :: es, by simp [hes, hl], hc.cons_some hsome he⟩

theorem holdEffect_corrections {db : DbStates} {es : List LedgerEvent} (m : String → ℤ)
    (hes : ∀ e ∈ es, ∃ d, Corrects db d e) (k : String) :
    es.foldl holdEffect m k =
      if k ∈ es.map LedgerEvent.idempotencyKey then dbTruth db[k]? else m k := by
  induction es generalizing m with
  | nil => simp
  | cons e es ih =>
    obtain ⟨d, he⟩ := hes e (by simp)
    have hstep : holdEffect m e =
        Function.update m e.idempotencyKey (dbTruth db[e.idempotencyKey]?) := by
      simp only [holdEffect, he.eventType, he.reserved, he.key]
    rw [List.foldl_cons, ih _ fun e' he' => hes e' (by simp [he']), hstep]
    by_cases hk : k = e.idempotencyKey <;> simp [hk]

def ActiveRowsHold (db : DbStates) : Prop :=
  ∀ (k : String) row, db[k]? = some row → row.status = "active" →
    0 < row.reservedSats ∧ row.reservedSats * 1000 ≤ 9223372036854775807

theorem dbTruth_nonneg {db : DbStates} (hdb : ActiveRowsHold db) (k : String) :
    0 ≤ dbTruth db[k]? := by
  cases hrow : db[k]? with
  | none => exact le_refl _
  | some row =>
    unfold dbTruth
    dsimp only
    split_ifs with hactive
    · have hpos := (hdb k row hrow hactive).1
      omega
    · exact le_refl _

theorem agrees_dbTruth {db : DbStates} (hdb : ActiveRowsHold db) (k : String) :
    Agrees (dbTruth db[k]?) db[k]? := by
  cases hrow : db[k]? with
  | none => rfl
  | some row =>
    by_cases hactive : row.status = "active"
    · have hpos := (hdb k row hrow hactive).1
      refine ⟨fun hterm => absurd (hactive ▸ hterm) active_not_terminal, fun _ => ?_⟩
      simp only [dbTruth, hactive, if_true, and_true]
      omega
    · exact ⟨fun _ => by simp [dbTruth, hactive], fun ha => absurd ha hactive⟩

theorem classify_agrees {outstanding : Amounts} {db : DbStates} {k : String}
    (hdb : ActiveRowsHold db) (hrow : db[k]? ≠ none)
    (h : Agrees (valueAt outstanding k) db[k]?) : classify outstanding db k = .ok none := by
  unfold classify
  cases hk : db[k]? with
  | none => exact absurd hk hrow
  | some row =>
    rw [hk] at h
    simp only
    rw [if_neg fun hstale => absurd (h.1 hstale.1) (not_le.mpr hstale.2)]
    by_cases hactive : row.status = "active"
    · obtain ⟨hne, heq⟩ := h.2 hactive
      obtain ⟨hpos, hfits⟩ := hdb k row hk hactive
      have hmsat : dbReservedMsatChecked row.reservedSats = .ok (row.reservedSats * 1000) := by
        unfold dbReservedMsatChecked checkedI64
        rw [if_pos ⟨by omega, hfits⟩]
      rw [if_neg fun hmissing => hne hmissing.2, if_pos hactive, hmsat]
      simp [bind, Except.bind, pure, Except.pure, heq]
    · rw [if_neg fun hmissing => hactive hmissing.1, if_neg hactive]

/-- Ledger and rows after one applied sweep: `before` and `after` are the two event streams. -/
structure Converged (before after : List LedgerEvent) (db : DbStates) (now stale : ℤ)
    (report : ReconciliationReport) (state state' : LedgerState) : Prop where
  active : ∀ (k : String) row, k ∉ startedWithoutTerminal before → db[k]? = some row →
    row.status = "active" → state'.reservedMsat[k]? = some (1000 * row.reservedSats)
  closed : ∀ k : String, k ∉ startedWithoutTerminal before →
    (∀ row, db[k]? = some row → row.status = "spent" ∨ row.status = "released") →
    state'.reservedMsat[k]? = none
  inFlight : ∀ k : String, k ∈ startedWithoutTerminal before →
    state'.reservedMsat[k]? = state.reservedMsat[k]?
  spent : state'.spentMsat = state.spentMsat
  total : state'.totalSpentMsat = state.totalSpentMsat
  anomalies : state'.anomalies = state.anomalies
  secondSweep : ∃ report', reconcile after db now stale = .ok report' ∧
    (∀ d ∈ report'.divergences, d.resolution = none) ∧
    report'.divergences = report.divergences.filter fun d => d.resolution.isNone
  counts : report.checked =
    report.matched + report.divergences.countP fun d => d.resolution.isSome

section Applied

variable {events es : List LedgerEvent} {db : DbStates} {now stale : ℤ}
  {report : ReconciliationReport} {state state' : LedgerState}
  {classified quarantined : List (Option Divergence)}

/-- Everything an applied sweep leaves behind, read off the corrections that it appended. -/
structure Applied (events es : List LedgerEvent) (db : DbStates)
    (report : ReconciliationReport) (state state' : LedgerState) : Prop where
  corrections : Corrections db report.divergences es
  outsideFlight : ∀ e ∈ es, e.idempotencyKey ∉ startedWithoutTerminal events
  replayed : replay (events ++ es) = .ok state'
  holds : HoldsOnly state state' es

theorem applied_of_sweep (hs : Sweep events db now stale report state classified quarantined)
    (hc : Corrections db report.divergences es) :
    ∃ state', Applied events es db report state state' := by
  have hhold : ∀ e ∈ es, HoldEvent e := by
    intro e he
    obtain ⟨d, -, -, hd⟩ := hc.sound e he
    exact ⟨by simp [hd.eventType], fun _ => hd.cost⟩
  obtain ⟨state', hstate', hholds⟩ := replay_append hs.replayed hhold
  refine ⟨state', hc, ?_, hstate', hholds⟩
  intro e he
  obtain ⟨d, hd, hres, hcorrects⟩ := hc.sound e he
  rw [hcorrects.key]
  rcases hs.mem_divergences.mp hd with hd | hd
  · exact (hs.resolved hd).1
  · exact absurd (hs.unresolved hd).2.2 hres

theorem Applied.inFlight_same (h : Applied events es db report state state') :
    startedWithoutTerminal (events ++ es) = startedWithoutTerminal events := by
  apply startedWithoutTerminal_append
  intro e he
  obtain ⟨d, -, -, hd⟩ := h.corrections.sound e he
  exact ⟨hd.eventType, h.outsideFlight e he⟩

theorem Applied.value (h : Applied events es db report state state') (k : String) :
    valueAt state'.reservedMsat k =
      if k ∈ es.map LedgerEvent.idempotencyKey then dbTruth db[k]?
      else valueAt state.reservedMsat k := by
  rw [h.holds.reserved]
  apply holdEffect_corrections
  intro e he
  obtain ⟨d, -, -, hd⟩ := h.corrections.sound e he
  exact ⟨d, hd⟩

theorem Applied.value_inFlight (h : Applied events es db report state state') {k : String}
    (hk : k ∈ startedWithoutTerminal events) :
    valueAt state'.reservedMsat k = valueAt state.reservedMsat k := by
  rw [h.value, if_neg]
  intro hmem
  obtain ⟨e, he, rfl⟩ := List.mem_map.mp hmem
  exact h.outsideFlight e he hk

theorem Applied.agrees (h : Applied events es db report state state')
    (hreport : reconcile events db now stale = .ok report) (hstate : replay events = .ok state)
    (hdb : ActiveRowsHold db) {k : String} (hk : k ∉ startedWithoutTerminal events) :
    Agrees (valueAt state'.reservedMsat k) db[k]? := by
  rw [h.value]
  split_ifs with hmem
  · exact agrees_dbTruth hdb k
  · -- A key without a correction has no resolvable divergence.
    by_contra hdis
    obtain ⟨d, hd, rfl, hres⟩ := (resolved_iff hreport hstate k).mpr ⟨hk, hdis⟩
    obtain ⟨e, he, hcorrects⟩ := h.corrections.complete d hd hres
    exact hmem (List.mem_map.mpr ⟨e, he, hcorrects.key⟩)

/-- The second sweep quarantines what the first one did and resolves nothing. -/
theorem Applied.second_sweep (h : Applied events es db report state state')
    (hs : Sweep events db now stale report state classified quarantined)
    (hdb : ActiveRowsHold db) :
    ∃ report', reconcile (events ++ es) db now stale = .ok report' ∧
      report'.divergences = quarantined.reduceOption := by
  have hreport := reconcile_ok.mpr ⟨state, classified, quarantined, hs⟩
  let keys := reconcileKeys state'.reservedMsat db (startedWithoutTerminal (events ++ es))
  refine ⟨⟨keys.length, keys.length, quarantined.reduceOption⟩, ?_, rfl⟩
  refine reconcile_ok.mpr ⟨state', keys.map fun _ => none, quarantined, h.replayed, ?_, ?_, ?_⟩
  · rw [List.map_map]
    apply List.map_congr_left
    intro k hk
    obtain ⟨hkeys, hflight⟩ := mem_reconcileKeys.mp hk
    rw [h.inFlight_same] at hflight
    have hagrees := h.agrees hreport hs.replayed hdb hflight
    have hrow : db[k]? ≠ none := by
      intro hnone
      rw [hnone] at hkeys hagrees
      exact (mem_iff_valueAt h.replayed).mp (by simpa using hkeys) hagrees
    rw [classify_agrees hdb hrow hagrees]
    rfl
  · rw [h.inFlight_same, ← hs.quarantines]
    apply List.map_congr_left
    intro entry hentry
    have hmem : entry.1 ∈ startedWithoutTerminal events := by
      obtain ⟨k, v⟩ := entry
      rw [Std.ExtTreeMap.mem_toList_iff_getElem?_eq_some] at hentry
      rw [Std.ExtTreeMap.mem_iff_isSome_getElem?, hentry]
      rfl
    simp only [quarantine, h.value_inFlight hmem]
  · simp [List.countP_replicate, keys]

theorem resolvable_isSome (hs : Sweep events db now stale report state classified quarantined) :
    ∀ d ∈ classified.reduceOption, d.resolution.isSome = true := by
  intro d hd
  rw [(hs.resolved (List.reduceOption_mem_iff.mp hd)).2.1.resolution]
  rfl

theorem quarantined_none (hs : Sweep events db now stale report state classified quarantined) :
    ∀ d ∈ quarantined.reduceOption, d.resolution = none := by
  intro d hd
  exact (hs.unresolved (List.reduceOption_mem_iff.mp hd)).2.2

theorem sweep_counts (hs : Sweep events db now stale report state classified quarantined) :
    report.checked =
      report.matched + report.divergences.countP fun d => d.resolution.isSome := by
  have hclassified : classified.reduceOption.countP (fun d => d.resolution.isSome) =
      classified.reduceOption.length := List.countP_eq_length.mpr (resolvable_isSome hs)
  have hquarantined : quarantined.reduceOption.countP (fun d => d.resolution.isSome) = 0 := by
    rw [List.countP_eq_zero]
    intro d hd
    simp [quarantined_none hs d hd]
  have hlength := List.length_eq_reduceOption_length_add_filter_none (l := classified)
  rw [← List.countP_eq_length_filter] at hlength
  simp only [hs.report, List.countP_append, hclassified, hquarantined]
  omega

theorem sweep_quarantined (hs : Sweep events db now stale report state classified quarantined) :
    report.divergences.filter (fun d => d.resolution.isNone) = quarantined.reduceOption := by
  have hclassified : classified.reduceOption.filter (fun d => d.resolution.isNone) = [] := by
    rw [List.filter_eq_nil_iff]
    intro d hd
    have hsome := resolvable_isSome hs d hd
    simp only [Option.isSome_iff_ne_none] at hsome
    simpa using hsome
  have hquarantined : quarantined.reduceOption.filter (fun d => d.resolution.isNone) =
      quarantined.reduceOption := by
    rw [List.filter_eq_self]
    intro d hd
    rw [quarantined_none hs d hd]
    rfl
  rw [hs.report, List.filter_append, hclassified, hquarantined, List.nil_append]

end Applied

theorem reconcile_converges {ledger ledger' : Ledger} {db : DbStates} {now stale : ℤ}
    {report : ReconciliationReport} {applied : ℕ}
    (hnonneg : ReservationsNonneg ledger.events) (hdb : ActiveRowsHold db)
    (hreport : reconcile ledger.events db now stale = .ok report)
    (happly : apply report now ledger = (.ok applied, ledger')) :
    ∃ state state', replay ledger.events = .ok state ∧ replay ledger'.events = .ok state' ∧
      Converged ledger.events ledger'.events db now stale report state state' := by
  obtain ⟨state, classified, quarantined, hs⟩ := reconcile_ok.mp hreport
  have hres : ∀ d ∈ report.divergences, d.resolution = none ∨ Resolves db d := by
    intro d hd
    rcases hs.mem_divergences.mp hd with hd | hd
    · exact Or.inr (hs.resolved hd).2.1
    · exact Or.inl (hs.unresolved hd).2.2
  obtain ⟨es, hes, hc⟩ := wp_ok (wp_apply 0 ledger hres) happly
  obtain ⟨state', happlied⟩ := applied_of_sweep hs hc
  obtain ⟨report', hreport', hdivergences⟩ := happlied.second_sweep hs hdb
  have hread := replay_reserved_getElem? happlied.replayed
  have hagrees := fun k hk => happlied.agrees (k := k) hreport hs.replayed hdb hk
  rw [hes]
  refine ⟨state, state', hs.replayed, happlied.replayed,
    { active := ?_
      closed := ?_
      inFlight := ?_
      spent := happlied.holds.spent
      total := happlied.holds.total
      anomalies := happlied.holds.anomalies
      secondSweep := ⟨report', hreport', ?_, ?_⟩
      counts := sweep_counts hs }⟩
  · intro k row hk hrow hactive
    have h := hagrees k hk
    rw [hrow] at h
    obtain ⟨hne, heq⟩ := h.2 hactive
    rw [hread, if_neg hne, heq, mul_comm]
  · intro k hk hclosed
    have hpos : 0 ≤ valueAt state'.reservedMsat k := by
      rw [happlied.value]
      split_ifs
      · exact dbTruth_nonneg hdb k
      · exact replay_nonneg hnonneg hs.replayed k
    have hzero : valueAt state'.reservedMsat k = 0 := by
      have h := hagrees k hk
      cases hrow : db[k]? with
      | none =>
        rw [hrow] at h
        exact h
      | some row =>
        rw [hrow] at h
        have hterm : row.status ∈ dbTerminal := by
          simpa [dbTerminal] using hclosed row hrow
        exact le_antisymm (h.1 hterm) hpos
    rw [hread, if_pos hzero]
  · intro k hk
    rw [hread, happlied.value_inFlight hk, replay_reserved_getElem? hs.replayed]
  · intro d hd
    rw [hdivergences] at hd
    exact quarantined_none hs d hd
  · rw [hdivergences, sweep_quarantined hs]

section OneSweep

/-- One key of each kind: no row, a closed row, no reservation, another amount, in flight. -/
def sweptLedger : Ledger :=
  let event (t : EventType) (key : String) (amounts : Amounts) : LedgerEvent :=
    { eventType := t
      intentId := key
      idempotencyKey := key
      cycleId := "cycle"
      atTime := 1
      amounts := amounts
      details := .obj [] }
  ⟨[event .budgetReserved "a" {("reserved_msat", 1000)},
    event .budgetReserved "b" {("reserved_msat", 2000)},
    event .budgetReserved "d" {("reserved_msat", 3000)},
    event .budgetReserved "e" {("reserved_msat", 4000)},
    event .executionStarted "e" ∅], []⟩

def sweptRows : DbStates :=
  {("b", ⟨"released", 2⟩), ("c", ⟨"active", 7⟩), ("d", ⟨"active", 5⟩)}

def sweptReport : ReconciliationReport :=
  (reconcile sweptLedger.events sweptRows 5000 3600).value.getD ⟨0, 0, []⟩

def correctedLedger : Ledger := (apply sweptReport 5000 sweptLedger).2

theorem reconcile_swept : reconcile sweptLedger.events sweptRows 5000 3600 = .ok sweptReport :=
  ok_of_isSome (by decide +kernel)

theorem apply_swept : apply sweptReport 5000 sweptLedger =
    (.ok ((apply sweptReport 5000 sweptLedger).1.value.getD 0), correctedLedger) :=
  Prod.ext (ok_of_isSome (by decide +kernel)) rfl

theorem activeRowsHold_swept : ActiveRowsHold sweptRows := by
  intro k row hrow _
  have hmem := Std.ExtTreeMap.mem_toList_iff_getElem?_eq_some.mpr hrow
  have hlist : sweptRows.toList =
      [("b", ⟨"released", 2⟩), ("c", ⟨"active", 7⟩), ("d", ⟨"active", 5⟩)] := by rfl
  rw [hlist] at hmem
  simp only [List.mem_cons, Prod.mk.injEq, List.not_mem_nil, or_false] at hmem
  rcases hmem with ⟨-, rfl⟩ | ⟨-, rfl⟩ | ⟨-, rfl⟩ <;> decide

theorem sweep_converges_on_every_kind : ∃ state state',
    replay sweptLedger.events = .ok state ∧ replay correctedLedger.events = .ok state' ∧
      Converged sweptLedger.events correctedLedger.events sweptRows 5000 3600 sweptReport
        state state' := by
  have hnonneg : ReservationsNonneg sweptLedger.events := by
    intro e he v hv
    have hcheck : sweptLedger.events.all
        (fun e => 0 ≤ valueAt e.amounts "reserved_msat") = true := by decide +kernel
    have hpos := of_decide_eq_true (List.all_eq_true.mp hcheck e he)
    rwa [valueAt, hv] at hpos
  exact reconcile_converges hnonneg activeRowsHold_swept reconcile_swept apply_swept

end OneSweep

end ReconcileConvergence
