import RevenueOps.RebalanceFacade
import RevenueOps.EngineTrail
import Std.Data.String.ToInt

/-! Held reservations. After a grant the engine or the facade spends the reservation, releases it,
or holds it for the sweep; the hold and the parked row are decided apart and must meet. -/
namespace HeldReservations

open FallibleState JsonValue RustNumber RustText RouteExecutor RebalanceEngine RebalanceFacade
open EngineAttempts EngineTrail
open BudgetRail (ReserveRequest)

variable {ω : Type}

section Log

def spends (reservationId : String) (log : List EngineCall) : ℕ :=
  log.countP fun c => match c with
    | .markBudgetSpent id _ => id = reservationId
    | _ => false

def releases (reservationId : String) (log : List EngineCall) : ℕ :=
  log.countP fun c => match c with
    | .releaseReservation id => id = reservationId
    | _ => false

def WritesRow (id : ℤ) : EngineCall → Prop
  | .insertOrAdoptHistory _ i => i = id
  | .updateHistory i _ _ => i = id
  | .updateHistorySuccess i _ => i = id
  | .updateHistoryPendingSettlement i _ _ => i = id
  | _ => False

/-- The history row that the log leaves in pending_settlement under the hash. An id that is not
positive names no row. -/
def Parked (log : List EngineCall) (id : ℤ) (hash : String) : Prop :=
  0 < id ∧ ∃ before e after, log = before ++ .updateHistoryPendingSettlement id e hash :: after ∧
    ∀ c ∈ after, ¬WritesRow id c

variable {rid : String} {cs ds : List EngineCall} {ks : List CallKind}

@[simp] theorem spends_append : spends rid (cs ++ ds) = spends rid cs + spends rid ds :=
  List.countP_append

@[simp] theorem releases_append : releases rid (cs ++ ds) = releases rid cs + releases rid ds :=
  List.countP_append

theorem spends_eq_zero (h : OfKind ks cs) (hk : .closing ∉ ks) : spends rid cs = 0 := by
  refine List.countP_eq_zero.mpr fun c hc => ?_
  cases c
  case markBudgetSpent => exact absurd (h _ hc) hk
  all_goals simp

theorem releases_eq_zero (h : OfKind ks cs) (hk : .closing ∉ ks) : releases rid cs = 0 := by
  refine List.countP_eq_zero.mpr fun c hc => ?_
  cases c
  case releaseReservation => exact absurd (h _ hc) hk
  all_goals simp

theorem not_writesRow (h : OfKind ks cs) (hk : ∀ k ∈ [.insertion, .row, .parking], k ∉ ks)
    (id : ℤ) : ∀ c ∈ cs, ¬WritesRow id c := by
  intro c hc hw
  have hkind : kind c ∈ [.insertion, .row, .parking] := by
    cases c <;> simp_all [WritesRow, kind]
  exact hk _ hkind (h c hc)

theorem Parked.mem {log : List EngineCall} {id : ℤ} {hash : String} (h : Parked log id hash) :
    ∃ e, .updateHistoryPendingSettlement id e hash ∈ log := by
  obtain ⟨-, before, e, after, rfl, -⟩ := h
  exact ⟨e, by simp⟩

end Log

section Sweep

def Final (reply : Except RpcFailure Json) : Prop :=
  ∃ response, reply = .ok response ∧ "pending" ∉ (paymentsOf response).map status

def Resolves (reservationId : String) (c : EngineCall) : Prop :=
  c = .releaseReservation reservationId ∨ ∃ fee, c = .markBudgetSpent reservationId fee

def maxMsat : ℤ := 2100000000000000000

def Bounded (reply : Except RpcFailure Json) : Prop :=
  ∀ response, reply = .ok response → ∀ p ∈ paymentsOf response,
    (0 ≤ parseMsat (member p "amount_msat") ∧ parseMsat (member p "amount_msat") ≤ maxMsat) ∧
      0 ≤ parseMsat (member p "amount_sent_msat") ∧
        parseMsat (member p "amount_sent_msat") ≤ maxMsat

/-- A later sweep that reads the row returns, and resolves the reservation of the row once the
node's replies on the hash are final. -/
def SweepResolves (deps : EngineDeps ω) (id : ℤ) (hash : String) : Prop :=
  ∀ s : EngineState ω,
    (∃ row ∈ (deps.pendingSettlementRows s.world).1, row.id = id ∧ row.paymentHash = some hash) →
    (∀ h world, Bounded (deps.listsendpays h world).1) →
      ∃ resolved t calls, reconcilePendingSettlements deps s = (.ok resolved, t) ∧
        t.log = s.log ++ calls ∧ ((∀ reply, .listsendpays hash reply ∈ calls → Final reply) →
          ∃ c ∈ calls, Resolves (toString id) c)

def Swept (row : HistoryRow) (calls : List EngineCall) : Prop :=
  ∀ hash, 0 < row.id → row.paymentHash = some hash → hash ≠ "" →
    (∀ reply, .listsendpays hash reply ∈ calls → Final reply) →
      ∃ c ∈ calls, Resolves (toString row.id) c

theorem Swept.append_left {row : HistoryRow} {cs ds : List EngineCall} (h : Swept row cs) :
    Swept row (cs ++ ds) := by
  intro hash hid hhash hne hfinal
  obtain ⟨c, hc, hr⟩ :=
    h hash hid hhash hne fun reply hm => hfinal reply (List.mem_append_left _ hm)
  exact ⟨c, List.mem_append_left _ hc, hr⟩

theorem Swept.append_right {row : HistoryRow} {cs ds : List EngineCall} (h : Swept row ds) :
    Swept row (cs ++ ds) := by
  intro hash hid hhash hne hfinal
  obtain ⟨c, hc, hr⟩ :=
    h hash hid hhash hne fun reply hm => hfinal reply (List.mem_append_right _ hm)
  exact ⟨c, List.mem_append_right _ hc, hr⟩

theorem logs_recordSettledCost (deps : EngineDeps ω) (row : HistoryRow)
    (feeMsat feeSats settledAmountSats : ℤ) (peerMap : Option (List (String × String))) :
    Logs .none (recordSettledCost deps row feeMsat feeSats settledAmountSats peerMap) fun _ calls =>
      OfKind [.note] calls := by
  have hmap : Silent (peerMapOnce deps peerMap) := by
    match peerMap with
    | some mapping => exact Silent.pure mapping
    | none => exact silent_ask.bind fun _ => Silent.pure _
  refine Logs.ite (fun _ => ?_) fun _ => Logs.pure (OfKind.nil _)
  refine Logs.after_silent hmap fun mapping => Logs.after_silent silent_ask fun now => ?_
  refine Logs.bind (ofKind_tell [.note] trivial (by simp [kind])) fun _ calls hcalls => ?_
  exact Logs.pure (hcalls.append (OfKind.nil _))

theorem logs_settleRow (deps : EngineDeps ω) (row : HistoryRow) (settled : Json)
    (peerMap : Option (List (String × String))) :
    Logs .none (settleRow deps row settled peerMap) fun _ calls =>
      ∃ c ∈ calls, Resolves (toString row.id) c := by
  refine Logs.after_checked fun difference _ => Logs.after_checked fun feeSats _ => ?_
  refine Logs.bind (logs_tell trivial) ?_
  rintro _ update rfl
  refine Logs.bind (logs_recordSettledCost deps row _ _ _ _) fun peerMap notes _ => ?_
  refine Logs.bind (logs_tell trivial) ?_
  rintro _ spent rfl
  exact Logs.pure ⟨.markBudgetSpent (toString row.id) feeSats, by simp, .inr ⟨feeSats, rfl⟩⟩

theorem logs_reconcilePendingRow (deps : EngineDeps ω) (row : HistoryRow)
    (peerMap : Option (List (String × String))) :
    Logs .none (reconcilePendingRow deps row peerMap) fun _ calls => Swept row calls := by
  refine Logs.ite (fun hskip => Logs.pure ?_) fun _ => ?_
  · intro hash hid hhash hne _
    rcases hskip with hskip | hskip
    · omega
    · rw [hhash] at hskip
      exact absurd hskip hne
  refine Logs.bind (logs_askLogged fun _ => trivial) ?_
  rintro reply calls rfl
  -- a reply that is not final leaves the row for the next sweep
  have hopen : ¬Final reply → ∀ more,
      Swept row (.listsendpays (row.paymentHash.getD "") reply :: more) := by
    intro hreply more hash _ hhash _ hfinal
    refine absurd (hfinal reply ?_) hreply
    simp [hhash]
  match reply with
  | .error e => exact Logs.pure (hopen (by simp [Final]) [])
  | .ok response =>
    refine Logs.ite (fun hpending => Logs.pure (hopen ?_ [])) fun _ => ?_
    · rintro ⟨_, h, hf⟩
      cases h
      exact hf hpending
    cases hsettled : (paymentsOf response).find? fun p =>
        decide ((member p "status").asStr = some "complete") with
    | some settled =>
      refine (logs_settleRow deps row settled peerMap).mono ?_
      rintro _ more ⟨c, hc, hr⟩ hash _ _ _ _
      exact ⟨c, List.mem_append_right _ hc, hr⟩
    | none =>
      refine Logs.bind (logs_tell trivial) ?_
      rintro _ update rfl
      refine Logs.bind (logs_tell trivial) ?_
      rintro _ release rfl
      refine Logs.bind (logs_tell trivial) ?_
      rintro _ delpay rfl
      refine Logs.pure fun hash _ _ _ _ => ?_
      exact ⟨.releaseReservation (toString row.id), by simp, .inl rfl⟩

theorem logs_reconcileRows (deps : EngineDeps ω) (rows : List HistoryRow)
    (peerMap : Option (List (String × String))) (resolved : ℕ) :
    Logs .none (reconcileRows deps rows peerMap resolved) fun _ calls =>
      ∀ row ∈ rows, Swept row calls := by
  induction rows generalizing peerMap resolved with
  | nil => exact Logs.pure (by simp)
  | cons row rows ih =>
    refine Logs.bind (logs_reconcilePendingRow deps row peerMap) ?_
    rintro ⟨done, peerMap⟩ calls hrow
    refine (ih peerMap _).mono fun _ more hrows r hr => ?_
    rcases List.mem_cons.mp hr with rfl | hr
    · exact hrow.append_left
    · exact (hrows r hr).append_right

theorem returns_recordSettledCost (deps : EngineDeps ω) (row : HistoryRow)
    (feeMsat feeSats settledAmountSats : ℤ) (peerMap : Option (List (String × String))) :
    Returns (recordSettledCost deps row feeMsat feeSats settledAmountSats peerMap) := by
  have hmap : Returns (peerMapOnce deps peerMap) := by
    match peerMap with
    | some mapping => exact Returns.pure mapping
    | none => exact returns_ask.bind fun _ => Returns.pure _
  refine Returns.ite (fun _ => ?_) fun _ => Returns.pure _
  exact hmap.bind fun _ => returns_ask.bind fun _ => returns_tell.bind fun _ => Returns.pure _

theorem returns_settleRow (deps : EngineDeps ω) (row : HistoryRow) (settled : Json)
    (peerMap : Option (List (String × String)))
    (hamount : 0 ≤ parseMsat (member settled "amount_msat") ∧
      parseMsat (member settled "amount_msat") ≤ maxMsat)
    (hsent : 0 ≤ parseMsat (member settled "amount_sent_msat") ∧
      parseMsat (member settled "amount_sent_msat") ≤ maxMsat) :
    Returns (settleRow deps row settled peerMap) := by
  unfold maxMsat at hamount hsent
  have hdifference : subI64 (parseMsat (member settled "amount_sent_msat"))
      (parseMsat (member settled "amount_msat")) =
        some (parseMsat (member settled "amount_sent_msat") -
          parseMsat (member settled "amount_msat")) := by
    refine i64?_eq_some.mpr ⟨?_, rfl⟩
    unfold InI64
    omega
  have hfee : ∀ difference, difference ≤ 2100000000000000000 →
      baseToSatsCeil (max difference 0) = some ((max difference 0 + 999).tdiv 1000) := by
    intro difference hle
    have hadd : addI64 (max difference 0) 999 = some (max difference 0 + 999) := by
      refine i64?_eq_some.mpr ⟨?_, rfl⟩
      unfold InI64
      omega
    rw [baseToSatsCeil, hadd, Option.map_some]
  refine Returns.after_checked hdifference ?_
  refine Returns.after_checked (hfee _ (by omega)) (returns_tell.bind fun _ => ?_)
  exact (returns_recordSettledCost deps row _ _ _ _).bind fun _ => returns_tell.bind fun _ =>
    Returns.pure _

theorem returns_reconcilePendingRow (deps : EngineDeps ω) (row : HistoryRow)
    (hbounded : ∀ h world, Bounded (deps.listsendpays h world).1)
    (peerMap : Option (List (String × String))) :
    Returns (reconcilePendingRow deps row peerMap) := by
  refine Returns.ite (fun _ => Returns.pure _) fun _ => Returns.after_askLogged fun world => ?_
  have hreply := hbounded (row.paymentHash.getD "") world
  cases hr : (deps.listsendpays (row.paymentHash.getD "") world).1 with
  | error e => exact Returns.pure _
  | ok response =>
    rw [hr] at hreply
    refine Returns.ite (fun _ => Returns.pure _) fun _ => ?_
    cases hsettled : (paymentsOf response).find? fun p =>
        decide ((member p "status").asStr = some "complete") with
    | some settled =>
      obtain ⟨hamount, hsent⟩ := hreply response rfl settled (List.mem_of_find?_eq_some hsettled)
      exact returns_settleRow deps row settled peerMap hamount hsent
    | none =>
      exact returns_tell.bind fun _ => returns_tell.bind fun _ => returns_tell.bind fun _ =>
        Returns.pure _

theorem returns_reconcileRows (deps : EngineDeps ω) (rows : List HistoryRow)
    (hbounded : ∀ h world, Bounded (deps.listsendpays h world).1)
    (peerMap : Option (List (String × String))) (resolved : ℕ) :
    Returns (reconcileRows deps rows peerMap resolved) := by
  induction rows generalizing peerMap resolved with
  | nil => exact Returns.pure _
  | cons row rows ih =>
    exact (returns_reconcilePendingRow deps row hbounded peerMap).bind fun _ => ih _ _

theorem sweep_resolves (deps : EngineDeps ω) {id : ℤ} {hash : String} (hid : 0 < id)
    (hne : hash ≠ "") : SweepResolves deps id hash := by
  rintro s ⟨row, hrow, rfl, hhash⟩ hbounded
  -- reading the rows logs nothing, so the sweep's calls are those of the loop
  obtain ⟨resolved, t, hrun⟩ := (returns_reconcileRows deps (deps.pendingSettlementRows s.world).1
    hbounded none 0).run { s with world := (deps.pendingSettlementRows s.world).2 }
  obtain ⟨calls, hcalls, hswept⟩ := (logs_reconcileRows deps _ none 0).run hrun
  exact ⟨resolved, t, calls, hrun, hcalls, hswept row hrow hash hid hhash hne⟩

end Sweep

/-- The row of the reservation is parked under the hash of the result, for a sweep to resolve. -/
def HeldForSweep (deps : EngineDeps ω) (r : ExecutionResult) (log : List EngineCall)
    (reservationId : String) : Prop :=
  ∃ id hash, r.paymentPending = true ∧ r.paymentHash = some hash ∧ hash ≠ "" ∧
    Parked log id hash ∧ toString id = reservationId ∧ SweepResolves deps id hash

/-- A granted reservation is spent once, released once, or held for the sweep. The counts tell
the three apart. -/
def Resolvable (deps : EngineDeps ω) (r : ExecutionResult) (log : List EngineCall)
    (reservationId : String) : Prop :=
  (spends reservationId log = 1 ∧ releases reservationId log = 0) ∨
    (spends reservationId log = 0 ∧ releases reservationId log = 1) ∨
      (spends reservationId log = 0 ∧ releases reservationId log = 0 ∧
        HeldForSweep deps r log reservationId)

/-- A recorded pending result is held for the sweep exactly when it is a failure whose row has the
id of the reservation: nothing else parks a row, and nothing after it writes one. -/
theorem heldForSweep_iff (deps : EngineDeps ω) (reservationId : String)
    {r final : ExecutionResult} {rowId : Option ℤ} {front record back : List EngineCall}
    {ks ls : List CallKind} (hfront : OfKind ks front) (hks : .parking ∉ ks)
    (hback : OfKind ls back) (hls : ∀ k ∈ [.insertion, .row, .parking], k ∉ ls)
    (hrecord : Recorded rowId r record) (hsame : SameOutcome final r) (hheld : Held r) :
    HeldForSweep deps final (front ++ (record ++ back)) reservationId ↔
      r.success = false ∧ ∃ id, rowId = some id ∧ 0 < id ∧ toString id = reservationId := by
  obtain ⟨hpending, hash, hhash, hne⟩ := hheld
  constructor
  · rintro ⟨id, parkedHash, -, -, -, hparked, hid, -⟩
    obtain ⟨e, hmem⟩ := hparked.mem
    have hrec : .updateHistoryPendingSettlement id e parkedHash ∈ record := by
      rcases List.mem_append.mp hmem with hm | hm
      · exact absurd hm (hfront.not_mem hks)
      · rcases List.mem_append.mp hm with hm | hm
        · exact hm
        · exact absurd hm (hback.not_mem (hls .parking (by simp)))
    have hloud : ¬(rowId = none ∨ r.success = true ∨ ¬Held r) :=
      fun hq => (hrecord.quiet hq).not_mem (by simp [kind]) hrec
    simp only [not_or, Bool.not_eq_true] at hloud
    obtain ⟨i, hi⟩ := Option.ne_none_iff_exists'.mp hloud.1
    obtain ⟨e', hpark⟩ := hrecord.parks i hash hi hloud.2.1 hpending hhash hne
    rw [hpark] at hrec
    obtain ⟨rfl, -, -⟩ := EngineCall.updateHistoryPendingSettlement.inj (List.mem_singleton.mp hrec)
    exact ⟨hloud.2.1, id, hi, hparked.1, hid⟩
  · rintro ⟨hfailed, id, hrow, hpos, hid⟩
    obtain ⟨e, hpark⟩ := hrecord.parks id hash hrow hfailed hpending hhash hne
    refine ⟨id, hash, hsame.pending.trans hpending, hsame.hash.trans hhash, hne, ?_, hid,
      sweep_resolves deps hpos hne⟩
    exact ⟨hpos, front, e, back, by rw [hpark]; rfl, not_writesRow hback hls id⟩

section Counts

variable {reserved : Bool} {r : ExecutionResult}

theorem counts_between (rid : String) (close : List EngineCall) {front back : List EngineCall}
    {ks ls : List CallKind}
    (hfront : OfKind ks front) (hks : .closing ∉ ks) (hback : OfKind ls back)
    (hls : .closing ∉ ls) :
    spends rid (front ++ (close ++ back)) = spends rid close ∧
      releases rid (front ++ (close ++ back)) = releases rid close := by
  simp only [spends_append, releases_append, spends_eq_zero hfront hks, spends_eq_zero hback hls,
    releases_eq_zero hfront hks, releases_eq_zero hback hls, Nat.zero_add, Nat.add_zero, and_self]

theorem spends_of_closed {rid : String} {close : List EngineCall}
    (h : Closed rid reserved r close) (hs : reserved = false ∨ Held r) :
    spends rid close = 0 ∧ releases rid close = 0 := by
  rw [h.stays hs]
  exact ⟨rfl, rfl⟩

theorem closes_once {rid : String} {close : List EngineCall} (h : Closed rid true r close)
    (hn : ¬Held r) :
    (spends rid close = 1 ∧ releases rid close = 0) ∨
      (spends rid close = 0 ∧ releases rid close = 1) := by
  rcases h.closes rfl hn with rfl | ⟨fee, rfl⟩
  · right
    simp [spends, releases]
  · left
    simp [spends, releases]

end Counts

section Engine

/-- The execution has a history row: the caller's, or one that the store gave it. -/
def HasRow (rebalanceId : Option ℤ) (log : List EngineCall) : Prop :=
  (∃ id, rebalanceId = some id ∧ 0 < id) ∨
    (rebalanceId = none ∧ ∃ row id, .insertOrAdoptHistory row id ∈ log ∧ 0 < id)

theorem hasRow_iff {rebalanceId rowId : Option ℤ} {rows rest : List EngineCall}
    {ks : List CallKind} (h : Rowed rebalanceId rowId rows) (hrest : OfKind ks rest)
    (hks : .insertion ∉ ks) :
    HasRow rebalanceId (rows ++ rest) ↔ ∃ id, rowId = some id ∧ 0 < id := by
  cases h with
  | given id => simp [HasRow]
  | inserted row id =>
    constructor
    · rintro (⟨i, hi, -⟩ | ⟨-, row', i, hmem, hpos⟩)
      · cases hi
      · rcases List.mem_append.mp hmem with hm | hm
        · obtain ⟨-, rfl⟩ := EngineCall.insertOrAdoptHistory.inj (List.mem_singleton.mp hm)
          exact ⟨i, if_pos hpos, hpos⟩
        · exact absurd hm (hrest.not_mem hks)
    · rintro ⟨i, hi, hpos⟩
      by_cases hid : 0 < id
      · exact .inr ⟨rfl, row, id, by simp, hid⟩
      · rw [if_neg hid] at hi
        cases hi

/-- A paid execution under a reservation of its own, from its row to its notes. -/
theorem resolvable_iff_paid {deps : EngineDeps ω} {reservationId : String} {rowId : Option ℤ}
    {r : ExecutionResult} {front calls : List EngineCall}
    (hfront : OfKind [.insertion, .reservation] front)
    (hid : ∀ id, rowId = some id → reservationId = toString id)
    (hpaid : Paid reservationId rowId true r calls) :
    Resolvable deps r (front ++ calls) reservationId ↔
      (Held r → r.success = false ∧ ∃ id, rowId = some id ∧ 0 < id) := by
  obtain ⟨attempts, record, close, notes, rfl, hcarried, hrecord, hclose, hnotes⟩ := hpaid
  have hbefore : OfKind [.insertion, .reservation, .attempt] (front ++ attempts) :=
    (hfront.mono (by simp)).append ((carried_ofKind hcarried).mono (by simp))
  have hafter : OfKind [.closing, .note] (close ++ notes) :=
    (hclose.ofKind.mono (by simp)).append (hnotes.mono (by simp))
  have hopen : OfKind [.insertion, .reservation, .attempt, .row, .note, .parking]
      ((front ++ attempts) ++ record) :=
    (hbefore.mono (by simp)).append (hrecord.ofKind.mono (by simp))
  obtain ⟨hspends, hreleases⟩ := counts_between reservationId close hopen
    (by simp) hnotes (by simp)
  rw [← List.append_assoc front attempts]
  rw [List.append_assoc] at hspends hreleases
  unfold Resolvable
  rw [hspends, hreleases]
  by_cases hheld : Held r
  · obtain ⟨hs, hr⟩ := spends_of_closed hclose (.inr hheld)
    have hsweep := heldForSweep_iff deps reservationId hbefore (by simp) hafter (by simp) hrecord
      (SameOutcome.refl r) hheld
    rw [hs, hr, hsweep]
    constructor
    · rintro (⟨h, -⟩ | ⟨-, h⟩ | ⟨-, -, hfailed, id, hrow, hpos, -⟩) _
      · cases h
      · cases h
      · exact ⟨hfailed, id, hrow, hpos⟩
    · intro h
      obtain ⟨hfailed, id, hrow, hpos⟩ := h hheld
      exact .inr (.inr ⟨rfl, rfl, hfailed, id, hrow, hpos, (hid id hrow).symm⟩)
  · constructor
    · intro _ h
      exact absurd h hheld
    · intro _
      rcases closes_once hclose hheld with h | h
      · exact .inl h
      · exact .inr (.inl h)

/-- After a grant, execute_pair leaves its reservation resolvable exactly when every reply that
holds it is a failure and there is a history row to park. -/
theorem engine_resolvable_iff [UnicodeCase] {deps : EngineDeps ω} {pair : PairCandidate}
    {accountCosts : Bool} {rebalanceId : Option ℤ} {world : ω} {ourId : String} {nonce : ℤ}
    {inflight : List String} {r : ExecutionResult} {t : EngineState ω} {req : ReserveRequest}
    (hrun : executePair deps pair true accountCosts rebalanceId
      (.start world ourId nonce inflight) = (.ok r, t))
    (hgrant : .reserveBudget req none ∈ t.log) :
    Resolvable deps r t.log req.reservationId ↔
      ∀ request q, .execute request q ∈ t.log → Held q →
        q.success = false ∧ HasRow rebalanceId t.log := by
  obtain ⟨log, hlog, htrail⟩ := (logs_executePair deps pair true accountCosts rebalanceId).run hrun
  rw [EngineState.start, List.nil_append] at hlog
  rw [hlog] at hgrant ⊢
  clear hlog hrun
  cases htrail with
  | unpaid _ _ _ hno => exact absurd hgrant (hno req)
  | paid rowId reservationId reserved rows reserve calls hrows hid hreserve _ hpaid =>
    have hrest : OfKind [.reservation, .attempt, .row, .note, .parking, .closing]
        (reserve ++ calls) :=
      (hreserve.ofKind.mono (by simp)).append (hpaid.ofKind.mono (by simp))
    have hfront : OfKind [.insertion, .reservation] (rows ++ reserve) :=
      (hrows.ofKind.mono (by simp)).append (hreserve.ofKind.mono (by simp))
    have hgrant : .reserveBudget req none ∈ reserve := by
      rcases List.mem_append.mp hgrant with h | h
      · exact absurd h (hrows.ofKind.not_mem (by simp [kind]))
      · exact (List.mem_append.mp h).resolve_right (hpaid.ofKind.not_mem (by simp [kind]))
    obtain ⟨rfl, hname⟩ := hreserve.grants hgrant
    have hheld := hpaid.held_iff (P := fun p => p.success = false ∧ ∃ id, rowId = some id ∧ 0 < id)
      fun p q hs => by rw [hs.success]
    rw [hasRow_iff hrows hrest (by simp), hname, ← List.append_assoc,
      resolvable_iff_paid hfront hid hpaid, hheld]
    refine forall₂_congr fun request q => ?_
    have hno : .execute request q ∉ rows ++ reserve := hfront.not_mem (by simp [kind])
    rw [List.mem_append, or_iff_right hno]

end Engine

section Facade

/-- The facade's closing calls: a success is spent, a failure that is not held is released. -/
structure FacadeClosed (reservationId : String) (r : ExecutionResult) (calls : List EngineCall) :
    Prop where
  kinds : OfKind [.row, .note, .closing] calls
  spent : r.success = true → spends reservationId calls = 1 ∧ releases reservationId calls = 0
  released : r.success = false → ¬Held r →
    spends reservationId calls = 0 ∧ releases reservationId calls = 1
  held : r.success = false → Held r → OfKind [.note] calls

theorem logs_updateRow (ks : List CallKind) (deps : EngineDeps ω) (rowId : Option ℤ)
    {call : ℤ → EngineCall} (hb : ∀ id, Bounds.none.Allows (call id))
    (h : ∀ id, kind (call id) ∈ ks) :
    Logs .none (updateRow deps rowId call) fun _ calls =>
      OfKind ks calls ∧ (rowId = none → calls = []) := by
  match rowId with
  | none => exact Logs.pure ⟨OfKind.nil _, fun _ => rfl⟩
  | some id =>
    refine (ofKind_tell _ (hb id) (h id)).mono fun _ calls hcalls => ⟨hcalls, fun hn => ?_⟩
    cases hn

theorem logs_recordSuccessfulRebalanceFee (deps : EngineDeps ω) (rowId : Option ℤ)
    (channelId peerId : String) (amountSats feeMsat : ℤ) :
    Logs .none (recordSuccessfulRebalanceFee deps rowId channelId peerId amountSats feeMsat)
      fun _ calls => OfKind [.row, .note] calls := by
  refine Logs.bind
    (logs_updateRow [.row, .note] deps rowId (fun _ => trivial) fun _ => by simp [kind])
    fun _ update hupdate => ?_
  refine Logs.ite (fun _ => Logs.after_silent silent_ask fun now => ?_) fun _ => Logs.pure ?_
  · refine Logs.bind (ofKind_tell [.row, .note] trivial (by simp [kind])) fun _ cost hcost => ?_
    exact Logs.pure (hupdate.1.append (hcost.append (OfKind.nil _)))
  · exact hupdate.1.append (OfKind.nil _)

theorem logs_closeSuccess (deps : EngineDeps ω) (candidate : RebalanceCandidate)
    (opts : ExecuteOpts) (rowId : ℤ) (rebalanceId : Option ℤ) {r : ExecutionResult}
    (hs : r.success = true) :
    Logs .none (closeSuccess deps candidate opts rowId rebalanceId true r) fun final calls =>
      SameOutcome final r ∧ FacadeClosed (toString rowId) r calls := by
  refine Logs.bind (logs_recordSuccessfulRebalanceFee deps rebalanceId _ _ _ _)
    fun fee record hrecord => ?_
  refine Logs.bind (ofKind_tell [.row, .note] trivial (by simp [kind])) fun _ reset hreset => ?_
  refine Logs.bind (ofKind_tell [.row, .note] trivial (by simp [kind])) fun _ decide hdecide => ?_
  refine Logs.ite (fun _ => ?_) fun hn => absurd rfl hn
  refine Logs.bind (logs_tell trivial) ?_
  rintro _ spent rfl
  refine Logs.pure ⟨SameOutcome.refl r, ?_⟩
  have hbefore : OfKind [.row, .note] (record ++ (reset ++ decide)) :=
    hrecord.append (hreset.append hdecide)
  have hcalls : record ++ (reset ++ (decide ++ ([.markBudgetSpent (toString rowId) fee] ++ []))) =
      (record ++ (reset ++ decide)) ++ ([.markBudgetSpent (toString rowId) fee] ++ []) := by simp
  obtain ⟨hspends, hreleases⟩ := counts_between (toString rowId)
    [.markBudgetSpent (toString rowId) fee] hbefore (by simp) (OfKind.nil [])
    (by simp)
  rw [hcalls]
  refine ⟨(hbefore.mono (by simp)).append ?_, fun _ => ?_, fun hf => ?_, fun hf => ?_⟩
  · simp [OfKind, kind]
  · rw [hspends, hreleases]
    simp [spends, releases]
  all_goals
    rw [hs] at hf
    cases hf

theorem logs_closeFailure [UnicodeCase] (deps : EngineDeps ω) (candidate : RebalanceCandidate)
    (opts : ExecuteOpts) (rowId : ℤ) (rebalanceId : Option ℤ) {r : ExecutionResult}
    (hs : r.success = false) :
    Logs .none (closeFailure deps candidate opts rowId rebalanceId true r) fun final calls =>
      SameOutcome final r ∧ FacadeClosed (toString rowId) r calls := by
  have hfailRow : Held r → (if r.paymentPending then none else rebalanceId) = none :=
    fun hh => if_pos hh.1
  refine Logs.bind (logs_updateRow [.row, .note] deps _ (fun _ => trivial) fun _ => by simp [kind])
    fun _ first hfirst => ?_
  refine Logs.bind (ofKind_tell [.note] trivial (by simp [kind])) fun _ count hcount => ?_
  refine Logs.bind (ofKind_tell [.note] trivial (by simp [kind])) fun _ decide hdecide => ?_
  refine Logs.bind (logs_updateRow [.row, .note] deps _ (fun _ => trivial) fun _ => by simp [kind])
    fun _ second hsecond => ?_
  have hbefore : OfKind [.row, .note] (first ++ (count ++ (decide ++ second))) :=
    hfirst.1.append ((hcount.mono (by simp)).append ((hdecide.mono (by simp)).append hsecond.1))
  refine Logs.ite (fun hrelease => ?_) fun hkeep => ?_
  · have hn : ¬Held r := fun hh => hrelease.2 (EngineAttempts.held_iff.mp hh)
    refine Logs.bind (logs_tell trivial) ?_
    rintro _ release rfl
    refine Logs.pure ⟨⟨rfl, rfl, rfl⟩, ?_⟩
    have hcalls : first ++ (count ++ (decide ++ (second ++
        ([.releaseReservation (toString rowId)] ++ [])))) =
        (first ++ (count ++ (decide ++ second))) ++
          ([.releaseReservation (toString rowId)] ++ []) := by simp
    obtain ⟨hspends, hreleases⟩ := counts_between (toString rowId)
      [.releaseReservation (toString rowId)] hbefore (by simp) (OfKind.nil [])
      (by simp)
    rw [hcalls]
    refine ⟨(hbefore.mono (by simp)).append ?_, fun ht => ?_, fun _ _ => ?_, fun _ hh => ?_⟩
    · simp [OfKind, kind]
    · rw [hs] at ht
      cases ht
    · rw [hspends, hreleases]
      simp [spends, releases]
    · exact absurd hh hn
  · have hh : Held r := by
      simp only [true_and, not_not] at hkeep
      exact EngineAttempts.held_iff.mpr hkeep
    refine Logs.pure ⟨⟨rfl, rfl, rfl⟩, ?_⟩
    rw [hfirst.2 (hfailRow hh), hsecond.2 (hfailRow hh)]
    have hnotes : OfKind [.note] ([] ++ (count ++ (decide ++ ([] ++ [])))) :=
      (OfKind.nil _).append (hcount.append (hdecide.append (OfKind.nil _)))
    refine ⟨hnotes.mono (by simp), fun ht => ?_, fun _ hn => absurd hh hn, fun _ _ => hnotes⟩
    rw [hs] at ht
    cases ht

/-- The facade's run: its own row, the grant, the engine's trail, and the closing calls. -/
inductive FacadeTrail (final : ExecutionResult) : List EngineCall → Prop where
  | refused (calls : List EngineCall) : (∀ req, .reserveBudget req none ∉ calls) →
      FacadeTrail final calls
  | run (row : HistoryRow) (rowId : ℤ) (req : ReserveRequest) (r : ExecutionResult)
    (engine close : List EngineCall) : req.reservationId = toString rowId →
    Trail (if 0 < rowId then some rowId else none) false r engine →
    SameOutcome final r → FacadeClosed (toString rowId) r close →
      FacadeTrail final
        ([.insertOrAdoptHistory row rowId, .reserveBudget req none] ++ (engine ++ close))

theorem logs_runAndClose [UnicodeCase] (deps : EngineDeps ω) (candidate : RebalanceCandidate)
    (opts : ExecuteOpts) (rowId : ℤ) (rebalanceId : Option ℤ) :
    Logs .none (runAndClose deps candidate opts rowId rebalanceId true) fun final calls =>
      ∃ r engine close, calls = engine ++ close ∧
        Trail (if 0 < rowId then some rowId else none) false r engine ∧
          SameOutcome final r ∧ FacadeClosed (toString rowId) r close := by
  refine Logs.bind (logs_executeCandidate deps candidate rowId (engineKwargs .manual)) ?_
  rintro r engine htrail
  refine Logs.ite (fun hs => ?_) fun hs => ?_
  · refine (logs_closeSuccess deps candidate opts rowId rebalanceId hs).mono ?_
    rintro final close ⟨hsame, hclosed⟩
    exact ⟨r, engine, close, rfl, htrail, hsame, hclosed⟩
  · have hfailed : r.success = false := by simpa using hs
    refine (logs_closeFailure deps candidate opts rowId rebalanceId hfailed).mono ?_
    rintro final close ⟨hsame, hclosed⟩
    exact ⟨r, engine, close, rfl, htrail, hsame, hclosed⟩

theorem logs_reserve (deps : EngineDeps ω) (config : FacadeConfig)
    (candidate : RebalanceCandidate) (opts : ExecuteOpts) (rowId : ℤ) :
    Logs .none (reserve deps config candidate opts rowId) fun block calls =>
      ∃ req, req.reservationId = toString rowId ∧ calls = [.reserveBudget req block] := by
  refine Logs.after_silent silent_ask fun now => Logs.after_checked fun windowSecs _ => ?_
  refine Logs.after_checked fun since _ => Logs.after_checked fun weeklySince _ => ?_
  refine Logs.mono (logs_askLogged fun _ => trivial) ?_
  rintro block calls rfl
  exact ⟨_, rfl, rfl⟩

theorem logs_executeRebalance [UnicodeCase] (deps : EngineDeps ω) (config : FacadeConfig)
    (candidate : RebalanceCandidate) (opts : ExecuteOpts) :
    Logs .none (executeRebalance deps config candidate true opts) FacadeTrail := by
  refine Logs.ite (fun _ => ?_) fun _ => ?_
  · refine Logs.bind (ofKind_tell [.note] trivial (by simp [kind])) fun _ calls hcalls => ?_
    refine Logs.pure (.refused _ fun req => ?_)
    rw [List.append_nil]
    exact hcalls.not_mem (by simp [kind])
  refine Logs.bind (logs_askLogged fun _ => trivial) ?_
  rintro rowId calls rfl
  refine Logs.bind (logs_reserve deps config candidate opts rowId) ?_
  rintro block calls ⟨req, hname, rfl⟩
  cases block with
  | some block =>
    refine Logs.bind (ofKind_tell [.note, .row] trivial (by simp [kind])) fun _ cs hcs => ?_
    refine Logs.bind
      (logs_updateRow [.note, .row] deps _ (fun _ => trivial) fun _ => by simp [kind])
      fun _ ds hds => Logs.pure (.refused _ fun q => ?_)
    have hrest : OfKind [.note, .row] (cs ++ (ds ++ [])) :=
      hcs.append (hds.1.append (OfKind.nil _))
    have hno : .reserveBudget q none ∉ cs ++ (ds ++ []) := hrest.not_mem (by simp [kind])
    simpa using hno
  | none =>
    refine (logs_runAndClose deps candidate opts rowId _).mono ?_
    rintro final calls ⟨r, engine, close, rfl, htrail, hsame, hclosed⟩
    exact .run _ rowId req r engine close hname htrail hsame hclosed

def FacadeRow (log : List EngineCall) : Prop :=
  ∃ row id, log.head? = some (.insertOrAdoptHistory row id) ∧ 0 < id

/-- A held failure is parked under the facade's reservation exactly when the facade has a row:
the row that the engine inserts in its place has another id. -/
theorem facade_heldForSweep_iff {deps : EngineDeps ω} {rowId : ℤ} {r final : ExecutionResult}
    {front engine close : List EngineCall} (hfront : OfKind [.insertion, .reservation] front)
    (htrail : Trail (if 0 < rowId then some rowId else none) false r engine)
    (hsame : SameOutcome final r) (hfailed : r.success = false) (hheld : Held r)
    (hclose : OfKind [.note] close) :
    HeldForSweep deps final (front ++ (engine ++ close)) (toString rowId) ↔ 0 < rowId := by
  cases htrail with
  | unpaid _ hpending _ _ => exact absurd hheld.1 (by simp [hpending])
  | paid given reservationId reserved rows reserve calls hrows _ hreserve hasked hpaid =>
    obtain rfl := hasked rfl
    obtain rfl := hreserve.nothing
    obtain ⟨attempts, record, closing, notes, rfl, hcarried, hrecord, hclosing, hnotes⟩ := hpaid
    obtain rfl := hclosing.stays (.inl rfl)
    have hbefore : OfKind [.insertion, .reservation, .attempt] (front ++ (rows ++ attempts)) :=
      (hfront.mono (by simp)).append
        ((hrows.ofKind.mono (by simp)).append ((carried_ofKind hcarried).mono (by simp)))
    have hcalls : front ++ ((rows ++ ([] ++ (attempts ++ (record ++ ([] ++ notes))))) ++ close) =
        (front ++ (rows ++ attempts)) ++ (record ++ (notes ++ close)) := by simp
    rw [hcalls,
      heldForSweep_iff deps _ hbefore (by simp) (hnotes.append hclose) (by simp) hrecord hsame
      hheld]
    constructor
    · rintro ⟨-, id, hid, hpos, hname⟩
      have heq : id = rowId := Int.repr_inj.mp hname
      exact heq ▸ hpos
    · intro hpos
      rw [if_pos hpos] at hrows
      cases hrows with
      | given => exact ⟨hfailed, rowId, rfl, hpos, rfl⟩

theorem resolvable_iff_run {deps : EngineDeps ω} {rowId : ℤ} {r final : ExecutionResult}
    {front engine close : List EngineCall}
    (hfront : OfKind [.insertion, .reservation] front)
    (htrail : Trail (if 0 < rowId then some rowId else none) false r engine)
    (hsame : SameOutcome final r) (hclosed : FacadeClosed (toString rowId) r close) :
    Resolvable deps final (front ++ (engine ++ close)) (toString rowId) ↔
      (Held r → r.success = true ∨ 0 < rowId) := by
  have hbefore : OfKind [.insertion, .row, .note, .reservation, .attempt, .parking]
      (front ++ engine) := (hfront.mono (by simp)).append (htrail.closes_nothing.mono (by simp))
  obtain ⟨hspends, hreleases⟩ := counts_between (toString rowId) close hbefore
    (by simp) (OfKind.nil []) (by simp)
  rw [List.append_nil, List.append_assoc] at hspends hreleases
  unfold Resolvable
  rw [hspends, hreleases]
  cases hs : r.success with
  | true => exact ⟨fun _ _ => .inl rfl, fun _ => .inl (hclosed.spent hs)⟩
  | false =>
    by_cases hheld : Held r
    · have hnotes := hclosed.held hs hheld
      rw [spends_eq_zero hnotes (by simp), releases_eq_zero hnotes (by simp),
        facade_heldForSweep_iff hfront htrail hsame hs hheld hnotes]
      simp [hheld]
    · exact ⟨fun _ hh => absurd hh hheld, fun _ => .inr (.inl (hclosed.released hs hheld))⟩

/-- After a grant, execute_rebalance leaves its reservation resolvable exactly when every reply
that holds it is a success or the facade has a row of its own. -/
theorem facade_resolvable_iff [UnicodeCase] {deps : EngineDeps ω} {config : FacadeConfig}
    {candidate : RebalanceCandidate} {opts : ExecuteOpts} {world : ω} {ourId : String} {nonce : ℤ}
    {inflight : List String} {final : ExecutionResult} {t : EngineState ω} {req : ReserveRequest}
    (hrun : executeRebalance deps config candidate true opts
      (.start world ourId nonce inflight) = (.ok final, t))
    (hgrant : .reserveBudget req none ∈ t.log) :
    Resolvable deps final t.log req.reservationId ↔
      ∀ request q, .execute request q ∈ t.log → Held q → q.success = true ∨ FacadeRow t.log := by
  obtain ⟨log, hlog, htrail⟩ := (logs_executeRebalance deps config candidate opts).run hrun
  rw [EngineState.start, List.nil_append] at hlog
  rw [hlog] at hgrant ⊢
  clear hlog hrun
  cases htrail with
  | refused _ hno => exact absurd hgrant (hno req)
  | run row rowId req' r engine close hname htrail hsame hclosed =>
    generalize hfrontEq : ([.insertOrAdoptHistory row rowId, .reserveBudget req' none] :
      List EngineCall) = front at hgrant ⊢
    have hfront : OfKind [.insertion, .reservation] front := by
      simp [← hfrontEq, OfKind, kind]
    have hrow : FacadeRow (front ++ (engine ++ close)) ↔ 0 < rowId := by
      simp [← hfrontEq, FacadeRow]
    have hreq : req = req' := by
      have hengine := htrail.grants_nothing req
      have hclose : .reserveBudget req none ∉ close := hclosed.kinds.not_mem (by simp [kind])
      simpa [← hfrontEq, hengine, hclose] using hgrant
    have hreplies := htrail.held_iff (P := fun p => p.success = true ∨ 0 < rowId)
      fun p q hs => by rw [hs.success]
    rw [hrow, hreq, hname, resolvable_iff_run hfront htrail hsame hclosed, hreplies]
    refine forall₂_congr fun request q => ?_
    have hno : .execute request q ∉ front := hfront.not_mem (by simp [kind])
    have hclose : .execute request q ∉ close := hclosed.kinds.not_mem (by simp [kind])
    rw [List.mem_append, List.mem_append, or_iff_left hclose, or_iff_right hno]

end Facade

/-- Every granted reservation that returns is resolvable, in the engine and in the facade, exactly
when what a pending reply holds is also what a history row can park. -/
theorem granted_reservation_resolvable_iff [UnicodeCase] (deps : EngineDeps ω) (world : ω)
    (ourId : String) (nonce : ℤ) (inflight : List String) :
    (∀ pair accountCosts rebalanceId r t req,
      executePair deps pair true accountCosts rebalanceId (.start world ourId nonce inflight) =
        (.ok r, t) → .reserveBudget req none ∈ t.log →
          (Resolvable deps r t.log req.reservationId ↔
            ∀ request q, .execute request q ∈ t.log → Held q →
              q.success = false ∧ HasRow rebalanceId t.log)) ∧
      ∀ config candidate opts r t req,
        executeRebalance deps config candidate true opts (.start world ourId nonce inflight) =
          (.ok r, t) → .reserveBudget req none ∈ t.log →
            (Resolvable deps r t.log req.reservationId ↔
              ∀ request q, .execute request q ∈ t.log → Held q →
                q.success = true ∨ FacadeRow t.log) :=
  ⟨fun _ _ _ _ _ _ hrun hgrant => engine_resolvable_iff hrun hgrant,
    fun _ _ _ _ _ _ hrun hgrant => facade_resolvable_iff hrun hgrant⟩

section UnavailableStore

def pendingReply : ExecutionResult :=
  { failedResult (paymentPendingTimeoutPrefix ++ "waitsendpay timed out") 1000 with
    attempts := 1
    paymentPending := true
    paymentHash := some "a1b2" }

/-- A store that gives no history row but grants the budget, and a payment that stays pending. -/
def unavailableStore : EngineDeps Unit :=
  { config :=
      { pairFeeCapPpm := 0
        capexProbabilityBudgetBonus := 0.0
        dailyBudgetSats := 100
        weeklyBudgetSats := none
        totalCostBudgetWindowHours := 24
        allowZeroCostAutoRebalanceWhenBudgetZero := false
        askreneLayerNames := []
        invoiceFinalCltv := 18 }
    policy := some fun _ _ => (.ok ⟨"dynamic", "enabled"⟩, ())
    now := fun _ => (0.0, ())
    tryLock := fun _ => (true, ())
    getinfoId := fun _ => (.ok "03", ())
    beginCycle := fun _ => (true, ())
    pricePair := fun _ _ _ => (.ok ⟨true, none, 5, [], 1000000⟩, ())
    execute := fun _ _ => (pendingReply, ())
    insertOrAdoptHistory := fun _ _ => (0, ())
    reserveBudget := fun _ _ => (none, ())
    pendingSettlementRows := fun _ => ([], ())
    listsendpays := fun _ _ => (.ok (.obj [("payments", .arr [])]), ())
    listpeerchannelsFull := fun _ => (.ok (.obj []), ())
    hasObservations := fun _ _ => (false, ())
    perform := fun _ _ => () }

def candidate : RebalanceCandidate :=
  { sourceCandidates := ["1x1x1"]
    toChannel := "2x2x2"
    primarySourcePeerId := "02aa"
    toPeerId := "02bb"
    amountSats := 1000
    maxBudgetSats := 10
    maxFeePpm := 10000
    expectedProfitSats := 5 }

theorem held_pendingReply : Held pendingReply := ⟨rfl, "a1b2", rfl, by decide⟩

/-- The reply of a log that is one row of history that is not there, one grant, and one attempt. -/
def attemptAfterGrant : List EngineCall → Option ExecutionResult
  | [.insertOrAdoptHistory _ 0, .reserveBudget _ none, .execute _ reply] => some reply
  | _ => none

theorem log_of_attemptAfterGrant {l : List EngineCall} {y : ExecutionResult}
    (h : attemptAfterGrant l = some y) : ∃ row req request, l =
      [.insertOrAdoptHistory row 0, .reserveBudget req none, .execute request y] := by
  rw [attemptAfterGrant.eq_def] at h
  split at h
  · cases h
    exact ⟨_, _, _, rfl⟩
  · cases h

/-- The reply of such a log when the facade goes on to count the failure and to set its own row. -/
def attemptThenFailure : List EngineCall → Option ExecutionResult
  | [.insertOrAdoptHistory _ 0, .reserveBudget _ none, .insertOrAdoptHistory _ 0,
      .execute _ reply, .incrementFailureCount _ 10000 1000 _,
      .setDecision _ _ "manual" false false] => some reply
  | _ => none

theorem log_of_attemptThenFailure {l : List EngineCall} {y : ExecutionResult}
    (h : attemptThenFailure l = some y) :
    ∃ row req own request key kindText action reason, l =
      [.insertOrAdoptHistory row 0, .reserveBudget req none, .insertOrAdoptHistory own 0,
        .execute request y, .incrementFailureCount key 10000 1000 kindText,
        .setDecision action reason "manual" false false] := by
  rw [attemptThenFailure.eq_def] at h
  split at h
  · cases h
    exact ⟨_, _, _, _, _, _, _, _, rfl⟩
  · cases h

theorem exists_ok {ε α σ : Type*} {o : Outcome ε α × σ} (h : o.1.value.isSome = true) :
    ∃ r, o = (.ok r, o.2) := by
  obtain ⟨result, t⟩ := o
  cases result with
  | ok r => exact ⟨r, rfl⟩
  | _ => cases h

/-- Neither entry parks a row for the pending payment, and neither releases its reservation. -/
theorem unavailable_store_strands_reservation :
    (∃ r t req, @executePair Unit asciiCase unavailableStore (explicitPair candidate) true true none
      (.start () "03" 1 []) = (.ok r, t) ∧ .reserveBudget req none ∈ t.log ∧
        ¬Resolvable unavailableStore r t.log req.reservationId) ∧
      ∃ r t req, @executeRebalance Unit asciiCase unavailableStore ⟨100, 1000, 24⟩ candidate true
        ⟨"normal", "manual", 0⟩ (.start () "03" 1 []) = (.ok r, t) ∧
          .reserveBudget req none ∈ t.log ∧
            ¬Resolvable unavailableStore r t.log req.reservationId := by
  constructor
  · obtain ⟨r, hrun⟩ := exists_ok (o := @executePair Unit asciiCase unavailableStore
      (explicitPair candidate) true true none (.start () "03" 1 [])) rfl
    obtain ⟨row, req, request, hlog⟩ := log_of_attemptAfterGrant (l := (@executePair Unit
      asciiCase unavailableStore (explicitPair candidate) true true none
        (.start () "03" 1 [])).2.log) (y := pendingReply) rfl
    generalize (@executePair Unit asciiCase unavailableStore (explicitPair candidate) true true
      none (.start () "03" 1 [])).2 = t at hrun hlog
    have hgrant : .reserveBudget req none ∈ t.log := by simp [hlog]
    refine ⟨r, t, req, hrun, hgrant, fun hresolvable => ?_⟩
    have hrow := ((@engine_resolvable_iff Unit asciiCase _ _ _ _ _ _ _ _ _ _ _ hrun hgrant).mp
      hresolvable request pendingReply (by simp [hlog]) held_pendingReply).2
    simp [HasRow, hlog] at hrow
  · obtain ⟨r, hrun⟩ := exists_ok (o := @executeRebalance Unit asciiCase unavailableStore
      ⟨100, 1000, 24⟩ candidate true ⟨"normal", "manual", 0⟩ (.start () "03" 1 [])) rfl
    obtain ⟨row, req, own, request, key, kindText, action, reason, hlog⟩ :=
      log_of_attemptThenFailure (l := (@executeRebalance Unit asciiCase unavailableStore
        ⟨100, 1000, 24⟩ candidate true ⟨"normal", "manual", 0⟩
          (.start () "03" 1 [])).2.log) (y := pendingReply) rfl
    generalize (@executeRebalance Unit asciiCase unavailableStore ⟨100, 1000, 24⟩ candidate true
      ⟨"normal", "manual", 0⟩ (.start () "03" 1 [])).2 = t at hrun hlog
    have hgrant : .reserveBudget req none ∈ t.log := by simp [hlog]
    refine ⟨r, t, req, hrun, hgrant, fun hresolvable => ?_⟩
    have hrow := (@facade_resolvable_iff Unit asciiCase _ _ _ _ _ _ _ _ _ _ _ hrun hgrant).mp
      hresolvable request pendingReply (by simp [hlog]) held_pendingReply
    rcases hrow with hs | hrow
    · exact absurd hs (by decide)
    · simp [FacadeRow, hlog] at hrow

end UnavailableStore

end HeldReservations
