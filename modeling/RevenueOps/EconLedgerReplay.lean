import RevenueOps.EconLedger
import RevenueOps.KeyLocalReplay

/-! Replay of the ledger against exact integers: each key's entries come from its own events
alone, and replay fails exactly where one of the sums it forms leaves the i64 range. -/
namespace EconLedger

open EconIntents JsonValue KeyLocalReplay

structure Account where
  reserved : ℤ
  spent : Option ℤ
  terminal : Option EventType
  deriving DecidableEq, Repr

def Account.empty : Account := ⟨0, none, none⟩

def IsI64 (x : ℤ) : Prop := -9223372036854775808 ≤ x ∧ x ≤ 9223372036854775807

def costOf (e : LedgerEvent) : Option ℤ :=
  match e.eventType with
  | .costRecorded => some (valueAt e.amounts "cost_msat")
  | .reconciliationCompleted => e.amounts["cost_msat"]?
  | _ => none

def terminates (e : LedgerEvent) : Bool :=
  e.eventType ∈ terminalEvents ∨
    e.eventType = .reconciliationCompleted ∧ detailsTerminal e.details

def reservedAfter (reserved : ℤ) (e : LedgerEvent) : ℤ :=
  match e.eventType with
  | .budgetReserved => valueAt e.amounts "reserved_msat"
  | .costRecorded => max (reserved - valueAt e.amounts "cost_msat") 0
  | .reservationReleased => 0
  | .reconciliationCompleted => (e.amounts["reserved_msat"]?).getD reserved
  | _ => reserved

def exactStep (a : Account) (e : LedgerEvent) : Account :=
  { reserved := reservedAfter a.reserved e
    spent := match costOf e with
      | some cost => some (a.spent.getD 0 + cost)
      | none => a.spent
    terminal := if terminates e then a.terminal.or (some e.eventType) else a.terminal }

def formed (a : Account) (e : LedgerEvent) : List ℤ :=
  match e.eventType with
  | .costRecorded =>
    [a.spent.getD 0 + valueAt e.amounts "cost_msat", a.reserved - valueAt e.amounts "cost_msat"]
  | .reconciliationCompleted =>
    match e.amounts["cost_msat"]? with
    | some cost => [a.spent.getD 0 + cost]
    | none => []
  | _ => []

def Fits (a : Account) (e : LedgerEvent) : Prop := ∀ x ∈ formed a e, IsI64 x

def Accumulator.account (acc : Accumulator) (k : String) : Account :=
  ⟨valueAt acc.reserved k, acc.spent[k]?, acc.terminal[k]?⟩

def account (events : List LedgerEvent) (k : String) : Account :=
  (own LedgerEvent.idempotencyKey k events).foldl exactStep .empty

theorem checkedI64_ok_iff {x y : ℤ} {msg : String} :
    checkedI64 x msg = .ok y ↔ IsI64 x ∧ x = y := by
  unfold checkedI64 IsI64
  split <;> simp_all

theorem checkedI64_of_fits {x : ℤ} {msg : String} (h : IsI64 x) : checkedI64 x msg = .ok x :=
  checkedI64_ok_iff.mpr ⟨h, rfl⟩

theorem checkedI64_of_not {x : ℤ} {msg : String} (h : ¬ IsI64 x) :
    checkedI64 x msg = .error ⟨msg⟩ := if_neg h

theorem account_setReserved (acc : Accumulator) (key k : String) (v : ℤ) :
    (acc.setReserved key v).account k =
      if key = k then { acc.account k with reserved := v } else acc.account k := by
  unfold Accumulator.account Accumulator.setReserved
  by_cases hk : key = k <;> simp [hk]

theorem account_markTerminal (acc : Accumulator) (key k : String) (t : EventType) :
    (acc.markTerminal key t).account k =
      if key = k then { acc.account k with terminal := (acc.account k).terminal.or (some t) }
      else acc.account k := by
  unfold Accumulator.account Accumulator.markTerminal
  rw [Std.ExtTreeMap.getElem?_insertIfNew]
  by_cases hk : key = k
  · subst hk
    cases ht : acc.terminal[key]? with
    | none =>
      have hmem : key ∉ acc.terminal := by simpa using ht
      simp [hmem]
    | some t' =>
      have hmem : key ∈ acc.terminal := Std.ExtTreeMap.mem_iff_isSome_getElem?.mpr (by simp [ht])
      simp [hmem]
  · simp [hk]

theorem account_spend (acc : Accumulator) (key k : String) (v : ℤ) :
    ({ acc with spent := acc.spent.insert key v } : Accumulator).account k =
      if key = k then { acc.account k with spent := some v } else acc.account k := by
  unfold Accumulator.account
  rw [Std.ExtTreeMap.getElem?_insert]
  by_cases hk : key = k <;> simp [hk]

theorem applyCost_ok_iff {acc t : Accumulator} {key : String} {cost : ℤ} :
    applyCost acc key cost = .ok t ↔
      IsI64 (valueAt acc.spent key + cost) ∧ IsI64 (valueAt acc.reserved key - cost) ∧
        t = { acc with
          anomalies := if valueAt acc.reserved key ≤ 0 ∧ acc.spent[key]? = none then
            acc.anomalies ++ ["cost_recorded without reservation: " ++ key] else acc.anomalies
          spent := acc.spent.insert key (valueAt acc.spent key + cost)
          reserved := acc.reserved.insert key (max (valueAt acc.reserved key - cost) 0) } := by
  unfold applyCost
  by_cases hs : IsI64 (valueAt acc.spent key + cost)
  · by_cases hr : IsI64 (valueAt acc.reserved key - cost)
    · simp [checkedI64_of_fits hs, checkedI64_of_fits hr, hs, hr, bind, Except.bind, pure,
        Except.pure, eq_comm]
    · simp [checkedI64_of_fits hs, checkedI64_of_not hr, hr, bind, Except.bind]
  · simp [checkedI64_of_not hs, hs, bind, Except.bind]

def corrected (acc : Accumulator) (e : LedgerEvent) : Accumulator :=
  match e.amounts["reserved_msat"]? with
  | some v => acc.setReserved e.idempotencyKey v
  | none => acc

def charged (acc : Accumulator) (e : LedgerEvent) : Accumulator :=
  match e.amounts["cost_msat"]? with
  | some v =>
    { acc with
      spent := acc.spent.insert e.idempotencyKey (valueAt acc.spent e.idempotencyKey + v) }
  | none => acc

def closed (acc : Accumulator) (e : LedgerEvent) : Accumulator :=
  if detailsTerminal e.details then acc.markTerminal e.idempotencyKey e.eventType else acc

theorem corrected_spent (acc : Accumulator) (e : LedgerEvent) :
    (corrected acc e).spent = acc.spent := by
  unfold corrected
  cases e.amounts["reserved_msat"]? <;> rfl

/-- A reconciliation corrects the reservation, adds its cost and closes the key, in this order. -/
theorem applyReconciliation_ok_iff {acc t : Accumulator} {e : LedgerEvent} :
    applyReconciliation acc e = .ok t ↔
      (∀ v, e.amounts["cost_msat"]? = some v → IsI64 (valueAt acc.spent e.idempotencyKey + v)) ∧
        t = closed (charged (corrected acc e) e) e := by
  cases hc : e.amounts["cost_msat"]? with
  | none =>
    have hrun : applyReconciliation acc e = .ok (closed (corrected acc e) e) := by
      unfold applyReconciliation
      simp only [hc]
      rfl
    simp [hrun, charged, hc, eq_comm]
  | some v =>
    let key := e.idempotencyKey
    let curSpent := valueAt (corrected acc e).spent key
    have hrun : applyReconciliation acc e =
        checkedI64 (curSpent + v)
          s!"ledger replay: reconciliation_completed spend accumulation overflow for {key}: {curSpent} + {v}"
        >>= fun newSpent => pure (closed { corrected acc e with
          spent := (corrected acc e).spent.insert key newSpent } e) := by
      unfold applyReconciliation
      simp only [hc, pure_bind]
      rfl
    simp only [hrun, curSpent, key, corrected_spent]
    by_cases hv : IsI64 (valueAt acc.spent e.idempotencyKey + v)
    · simp [charged, hc, checkedI64_of_fits hv, hv, corrected_spent, pure, Except.pure, bind,
        Except.bind, eq_comm]
    · simp [checkedI64_of_not hv, hv, bind, Except.bind]

theorem account_corrected (acc : Accumulator) (e : LedgerEvent) (k : String) :
    (corrected acc e).account k =
      if e.idempotencyKey = k then
        { acc.account k with
          reserved := (e.amounts["reserved_msat"]?).getD (acc.account k).reserved }
      else acc.account k := by
  unfold corrected
  cases e.amounts["reserved_msat"]? with
  | none => simp
  | some v => simpa using account_setReserved acc _ k v

theorem account_charged (acc : Accumulator) (e : LedgerEvent) (k : String) :
    (charged acc e).account k =
      if e.idempotencyKey = k then
        { acc.account k with
          spent := match e.amounts["cost_msat"]? with
            | some v => some ((acc.account k).spent.getD 0 + v)
            | none => (acc.account k).spent }
      else acc.account k := by
  unfold charged
  cases e.amounts["cost_msat"]? with
  | none => simp
  | some v =>
    rw [account_spend]
    by_cases hk : e.idempotencyKey = k
    · subst hk
      rfl
    · simp [hk]

theorem account_closed (acc : Accumulator) (e : LedgerEvent) (k : String) :
    (closed acc e).account k =
      if e.idempotencyKey = k then
        { acc.account k with
          terminal := if detailsTerminal e.details then
            (acc.account k).terminal.or (some e.eventType) else (acc.account k).terminal }
      else acc.account k := by
  unfold closed
  split
  · rw [account_markTerminal]
  · simp

theorem account_reconciled (acc : Accumulator) {e : LedgerEvent}
    (he : e.eventType = .reconciliationCompleted) (k : String) :
    (closed (charged (corrected acc e) e) e).account k =
      if e.idempotencyKey = k then exactStep (acc.account k) e else acc.account k := by
  rw [account_closed, account_charged, account_corrected]
  by_cases hk : e.idempotencyKey = k
  · have hterm : terminates e = detailsTerminal e.details := by
      simp [terminates, he, terminalEvents]
    simp [hk, exactStep, reservedAfter, costOf, he, hterm]
  · simp [hk]

theorem account_cost (acc : Accumulator) {e : LedgerEvent} (he : e.eventType = .costRecorded)
    (anomalies : List String) (k : String) :
    ({ acc with
        anomalies := anomalies
        spent := acc.spent.insert e.idempotencyKey
          (valueAt acc.spent e.idempotencyKey + valueAt e.amounts "cost_msat")
        reserved := acc.reserved.insert e.idempotencyKey
          (max (valueAt acc.reserved e.idempotencyKey - valueAt e.amounts "cost_msat") 0) } :
        Accumulator).account k =
      if e.idempotencyKey = k then exactStep (acc.account k) e else acc.account k := by
  by_cases hk : e.idempotencyKey = k
  · subst hk
    simp [Accumulator.account, exactStep, reservedAfter, costOf, terminates, terminalEvents, he,
      valueAt]
  · simp [Accumulator.account, Std.ExtTreeMap.getElem?_insert, hk]

theorem applyEvent_spec (acc : Accumulator) (e : LedgerEvent) :
    ((∃ t, applyEvent acc e = .ok t) ↔ Fits (acc.account e.idempotencyKey) e) ∧
      ∀ t, applyEvent acc e = .ok t → ∀ k, t.account k =
        if e.idempotencyKey = k then exactStep (acc.account k) e else acc.account k := by
  unfold applyEvent
  cases ht : e.eventType
  case costRecorded =>
    simp only [applyCost_ok_iff]
    constructor
    · simp [Fits, formed, ht, Accumulator.account, valueAt]
    · rintro t ⟨-, -, rfl⟩ k
      exact account_cost acc ht _ k
  case reconciliationCompleted =>
    simp only [applyReconciliation_ok_iff]
    constructor
    · unfold Fits formed
      cases e.amounts["cost_msat"]? <;> simp [ht, Accumulator.account, valueAt]
    · rintro t ⟨-, rfl⟩ k
      exact account_reconciled acc ht k
  case budgetReserved =>
    refine ⟨by simp [Fits, formed, ht], ?_⟩
    intro t h k
    rw [← Except.ok.inj h, account_setReserved]
    simp [exactStep, reservedAfter, costOf, terminates, terminalEvents, ht]
  case reservationReleased =>
    refine ⟨by simp [Fits, formed, ht], ?_⟩
    intro t h k
    rw [← Except.ok.inj h, account_setReserved]
    simp [exactStep, reservedAfter, costOf, terminates, terminalEvents, ht]
  all_goals
    refine ⟨by simp [Fits, formed, ht], ?_⟩
    intro t h k
    rw [← Except.ok.inj h]
    simp [terminalEvents, account_markTerminal, exactStep, reservedAfter, costOf, terminates, ht]

theorem applyEvent_keyLocal :
    KeyLocal applyEvent LedgerEvent.idempotencyKey Accumulator.account Fits exactStep :=
  ⟨fun acc e => (applyEvent_spec acc e).1, fun acc e => (applyEvent_spec acc e).2⟩

def spentTable (events : List LedgerEvent) : Amounts :=
  events.foldl (fun m e =>
    match costOf e with
    | some cost => m.insert e.idempotencyKey (valueAt m e.idempotencyKey + cost)
    | none => m) ∅

theorem getElem?_spentTable (events : List LedgerEvent) (k : String) :
    (spentTable events)[k]? = (account events k).spent := by
  have hgen : ∀ (events : List LedgerEvent) (m : Amounts) (a : Account), m[k]? = a.spent →
      (events.foldl (fun m e =>
        match costOf e with
        | some cost => m.insert e.idempotencyKey (valueAt m e.idempotencyKey + cost)
        | none => m) m)[k]? =
              ((own LedgerEvent.idempotencyKey k events).foldl exactStep a).spent := by
    intro events
    induction events with
    | nil => exact fun _ _ h => h
    | cons e es ih =>
      intro m a h
      rw [List.foldl_cons]
      by_cases hk : e.idempotencyKey = k
      · subst hk
        rw [own_cons_self, List.foldl_cons]
        refine ih _ _ ?_
        cases hc : costOf e <;> simp [exactStep, hc, h, valueAt]
      · rw [own_cons_of_ne hk]
        refine ih _ _ ?_
        cases costOf e with
        | none => exact h
        | some cost => simpa [Std.ExtTreeMap.getElem?_insert, hk] using h
  exact hgen events ∅ .empty (by simp [Account.empty])

theorem checkedSum_ok_iff {vs : List ℤ} {start t : ℤ} {msg : String} :
    vs.foldlM (fun acc v => checkedI64 (acc + v) msg) start = .ok t ↔
      (∀ n < vs.length, IsI64 (start + (vs.take (n + 1)).sum)) ∧ start + vs.sum = t := by
  induction vs generalizing start with
  | nil => simp [pure, Except.pure]
  | cons v vs ih =>
    rw [List.foldlM_cons]
    by_cases hv : IsI64 (start + v)
    · have hstep : (checkedI64 (start + v) msg >>= fun s =>
          vs.foldlM (fun acc v => checkedI64 (acc + v) msg) s) =
            vs.foldlM (fun acc v => checkedI64 (acc + v) msg) (start + v) := by
        rw [checkedI64_of_fits hv]
        rfl
      rw [hstep, ih, List.sum_cons, ← add_assoc]
      refine and_congr_left fun _ => ?_
      constructor
      · intro h n hn
        cases n with
        | zero => simpa using hv
        | succ n => simpa [← add_assoc] using h n (by simpa using hn)
      · intro h n hn
        simpa [← add_assoc] using h (n + 1) (by simpa using hn)
    · have hstep : (checkedI64 (start + v) msg >>= fun s =>
          vs.foldlM (fun acc v => checkedI64 (acc + v) msg) s) = .error ⟨msg⟩ := by
        rw [checkedI64_of_not hv]
        rfl
      rw [hstep]
      simp only [reduceCtorEq, false_iff, not_and]
      intro h
      exact absurd (by simpa using h 0 (by simp)) hv

def RunningTotalsFit (spent : Amounts) : Prop :=
  ∀ n < (spent.toList.map Prod.snd).length, IsI64 ((spent.toList.map Prod.snd).take (n + 1)).sum

theorem totalSpent_ok_iff {spent : Amounts} {t : ℤ} :
    totalSpent spent = .ok t ↔ RunningTotalsFit spent ∧ (spent.toList.map Prod.snd).sum = t := by
  unfold totalSpent RunningTotalsFit
  rw [checkedSum_ok_iff]
  simp only [zero_add]

theorem accumulate_account {events : List LedgerEvent} {acc : Accumulator}
    (h : accumulate events = .ok acc) (k : String) : acc.account k = account events k := by
  rw [applyEvent_keyLocal.run_cell h k]
  simp [account, Accumulator.account, Accumulator.empty, valueAt, Account.empty]

theorem accumulate_spent {events : List LedgerEvent} {acc : Accumulator}
    (h : accumulate events = .ok acc) : acc.spent = spentTable events := by
  refine Std.ExtTreeMap.ext_getElem? fun k => ?_
  rw [getElem?_spentTable, ← accumulate_account h k]
  rfl

theorem accumulate_ok_iff {events : List LedgerEvent} : (∃ acc, accumulate events = .ok acc) ↔
    ∀ k, AcceptsAll Fits exactStep .empty (own LedgerEvent.idempotencyKey k events) := by
  have hempty : ∀ k, Accumulator.empty.account k = .empty := by
    intro k
    simp [Accumulator.account, Accumulator.empty, valueAt, Account.empty]
  refine applyEvent_keyLocal.run_ok_iff.trans ?_
  simp only [hempty]

/-- Replay succeeds exactly where every sum it forms fits. -/
theorem replay_ok_iff {events : List LedgerEvent} : (∃ st, replay events = .ok st) ↔
    (∀ k, AcceptsAll Fits exactStep .empty (own LedgerEvent.idempotencyKey k events)) ∧
      RunningTotalsFit (spentTable events) := by
  constructor
  · rintro ⟨st, h⟩
    obtain ⟨acc, hacc, hfinish⟩ := replay_eq h
    have htotal := totalSpent_ok_iff.mp (finish_ok_iff.mp hfinish).1
    rw [accumulate_spent hacc] at htotal
    exact ⟨accumulate_ok_iff.mp ⟨acc, hacc⟩, htotal.1⟩
  · rintro ⟨hall, hfit⟩
    obtain ⟨acc, hacc⟩ := accumulate_ok_iff.mpr hall
    rw [← accumulate_spent hacc] at hfit
    exact ⟨⟨_, _, _, _, _⟩,
      replay_of hacc (finish_ok_iff.mpr ⟨totalSpent_ok_iff.mpr ⟨hfit, rfl⟩, rfl, rfl, rfl, rfl⟩)⟩

structure Projects (st : LedgerState) (events : List LedgerEvent) : Prop where
  reserved : ∀ k, st.reservedMsat[k]? =
    if (account events k).reserved = 0 then none else some (account events k).reserved
  spent : ∀ k, st.spentMsat[k]? = (account events k).spent
  terminal : ∀ k, st.terminal[k]? = (account events k).terminal
  total : st.totalSpentMsat = (st.spentMsat.toList.map Prod.snd).sum

theorem replay_projects {events : List LedgerEvent} {st : LedgerState}
    (h : replay events = .ok st) : Projects st events := by
  obtain ⟨acc, hacc, hfinish⟩ := replay_eq h
  obtain ⟨htotal, hreserved, hspent, hterminal, -⟩ := finish_ok_iff.mp hfinish
  have haccount := accumulate_account hacc
  refine ⟨?_, ?_, ?_, ?_⟩
  · intro k
    rw [hreserved, getElem?_filter_nonzero, ← haccount k]
    rfl
  · intro k
    rw [hspent, ← haccount k]
    rfl
  · intro k
    rw [hterminal, ← haccount k]
    rfl
  · rw [hspent]
    exact (totalSpent_ok_iff.mp htotal).2.symm

def SameProjections (st st' : LedgerState) : Prop :=
  st.reservedMsat = st'.reservedMsat ∧ st.spentMsat = st'.spentMsat ∧
    st.totalSpentMsat = st'.totalSpentMsat ∧ st.terminal = st'.terminal

def SameOwn (es fs : List LedgerEvent) : Prop :=
  ∀ k, own LedgerEvent.idempotencyKey k es = own LedgerEvent.idempotencyKey k fs

theorem account_eq_of_sameOwn {es fs : List LedgerEvent} (h : SameOwn es fs) (k : String) :
    account es k = account fs k := by
  rw [account, account, h k]

theorem replay_reorder {es fs : List LedgerEvent} (h : SameOwn es fs) {st : LedgerState}
    (hst : replay es = .ok st) : ∃ st', replay fs = .ok st' ∧ SameProjections st st' := by
  have hspent : spentTable es = spentTable fs := by
    refine Std.ExtTreeMap.ext_getElem? fun k => ?_
    rw [getElem?_spentTable, getElem?_spentTable, account_eq_of_sameOwn h k]
  have hok := replay_ok_iff.mp ⟨st, hst⟩
  rw [hspent] at hok
  obtain ⟨st', hst'⟩ := replay_ok_iff.mpr ⟨fun k => h k ▸ hok.1 k, hok.2⟩
  have hp := replay_projects hst
  have hp' := replay_projects hst'
  have hs : st.spentMsat = st'.spentMsat := by
    refine Std.ExtTreeMap.ext_getElem? fun k => ?_
    rw [hp.spent, hp'.spent, account_eq_of_sameOwn h k]
  refine ⟨st', hst', ?_, hs, ?_, ?_⟩
  · refine Std.ExtTreeMap.ext_getElem? fun k => ?_
    rw [hp.reserved, hp'.reserved, account_eq_of_sameOwn h k]
  · rw [hp.total, hp'.total, hs]
  · refine Std.ExtTreeMap.ext_getElem? fun k => ?_
    rw [hp.terminal, hp'.terminal, account_eq_of_sameOwn h k]

/-- The second list is the first with further terminal events of keys that are terminal there. -/
inductive Repeats : List LedgerEvent → List LedgerEvent → Prop where
  | refl (es : List LedgerEvent) : Repeats es es
  | insert {es pre post : List LedgerEvent} {first e : LedgerEvent} :
      Repeats es (pre ++ post) → first ∈ pre → terminates first = true →
        first.idempotencyKey = e.idempotencyKey → e.eventType ∈ terminalEvents →
          Repeats es (pre ++ e :: post)

theorem account_terminal_of_mem {es : List LedgerEvent} {first : LedgerEvent} (h : first ∈ es)
    (hterm : terminates first = true) : (account es first.idempotencyKey).terminal ≠ none := by
  have hkeep : ∀ (l : List LedgerEvent) (a : Account), a.terminal ≠ none →
      (l.foldl exactStep a).terminal ≠ none := by
    intro l
    induction l with
    | nil => exact fun _ ha => ha
    | cons e l ih =>
      intro a ha
      refine ih _ ?_
      by_cases he : terminates e = true
      · simp [exactStep, he]
      · simpa [exactStep, he] using ha
  have hmem : first ∈ own LedgerEvent.idempotencyKey first.idempotencyKey es :=
    List.mem_filter.mpr ⟨h, by simp⟩
  obtain ⟨s, t, heq⟩ := List.append_of_mem hmem
  rw [account, heq, List.foldl_append, List.foldl_cons]
  refine hkeep t _ ?_
  simp [exactStep, hterm]

theorem applyEvent_repeat {acc : Accumulator} {e : LedgerEvent} (he : e.eventType ∈ terminalEvents)
    (hterm : acc.terminal[e.idempotencyKey]? ≠ none) : applyEvent acc e = .ok acc := by
  have hsame : ∀ t, acc.markTerminal e.idempotencyKey t = acc := by
    intro t
    have hmap : acc.terminal.insertIfNew e.idempotencyKey t = acc.terminal := by
      refine Std.ExtTreeMap.ext_getElem? fun k => ?_
      have hmem : e.idempotencyKey ∈ acc.terminal :=
        Std.ExtTreeMap.mem_iff_isSome_getElem?.mpr (Option.isSome_iff_ne_none.mpr hterm)
      rw [Std.ExtTreeMap.getElem?_insertIfNew, if_neg fun h => h.2 hmem]
    simp only [Accumulator.markTerminal, hmap]
  unfold applyEvent
  cases ht : e.eventType <;> simp_all [terminalEvents]

theorem accumulate_repeats {es fs : List LedgerEvent} (h : Repeats es fs) :
    accumulate fs = accumulate es := by
  induction h with
  | refl => rfl
  | @insert pre post first e hrest hmem hterm hkey he ih =>
    rw [← ih, accumulate_append, accumulate_append]
    cases hacc : accumulate pre with
    | error err => rfl
    | ok acc =>
      have hnone : acc.terminal[e.idempotencyKey]? ≠ none := by
        have haccount := congrArg Account.terminal (accumulate_account hacc e.idempotencyKey)
        rw [← hkey] at haccount ⊢
        rw [show acc.terminal[first.idempotencyKey]? = _ from haccount]
        exact account_terminal_of_mem hmem hterm
      simp only [bind, Except.bind, List.foldlM_cons, applyEvent_repeat he hnone]

/-- Replay is an exact, key-local fold: it fails only where a sum or a difference that it forms
leaves the i64 range, and otherwise shows each key's own events; so the order across keys and
repeated terminal events do not matter. -/
theorem replay_exact (events : List LedgerEvent) :
    ((∃ err, replay events = .error err) →
      (∃ k pre e post, own LedgerEvent.idempotencyKey k events = pre ++ e :: post ∧
        ∃ x ∈ formed (pre.foldl exactStep .empty) e, ¬ IsI64 x) ∨
      ∃ n, ¬ IsI64 (((spentTable events).toList.map Prod.snd).take n).sum) ∧
    (∀ st, replay events = .ok st → Projects st events) ∧
    (∀ fs, SameOwn events fs → ∀ st, replay events = .ok st →
      ∃ st', replay fs = .ok st' ∧ SameProjections st st') ∧
    (∀ fs, Repeats events fs → replay fs = replay events) := by
  refine ⟨?_, fun st => replay_projects, fun fs h st => replay_reorder h, ?_⟩
  · rintro ⟨err, herr⟩
    by_contra hfits
    rw [not_or] at hfits
    have hok : ∃ st, replay events = .ok st := by
      refine replay_ok_iff.mpr ⟨?_, ?_⟩
      · intro k
        by_contra hnot
        obtain ⟨pre, e, post, heq, hne⟩ := exists_of_not_acceptsAll hnot
        refine hfits.1 ⟨k, pre, e, post, heq, ?_⟩
        simpa [Fits] using hne
      · intro n _
        by_contra hnot
        exact hfits.2 ⟨n + 1, hnot⟩
    obtain ⟨st, hst⟩ := hok
    rw [herr] at hst
    simp at hst
  · intro fs h
    rw [replay, replay, accumulate_repeats h]

end EconLedger
