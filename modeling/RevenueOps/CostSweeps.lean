import RevenueOps.CostHandlings

/-! What a sweep books: for each parked row, one cost when the node reports a completed payment
with a fee. -/
namespace CostSweeps

open FallibleState JsonValue RustNumber RustText RouteExecutor RebalanceEngine RebalanceFacade
open EngineAttempts EngineTrail HeldReservations CostBookings CostHandlings

variable {ω : Type}

section Replies

def Sweepable (row : HistoryRow) : Prop := 0 < row.id ∧ row.paymentHash.getD "" ≠ ""

instance (row : HistoryRow) : Decidable (Sweepable row) := by
  unfold Sweepable
  infer_instance

def sendpayReplies (log : List EngineCall) : List (Except RpcFailure Json) :=
  log.filterMap fun
    | .listsendpays _ reply => some reply
    | _ => none

def answers (rows : List HistoryRow) (log : List EngineCall) :
    List (HistoryRow × Except RpcFailure Json) :=
  (rows.filter fun row => Sweepable row).zip (sendpayReplies log)

def settledFee : Except RpcFailure Json → Option ℤ
  | .error _ => none
  | .ok response =>
    if "pending" ∈ (paymentsOf response).map status then none
    else ((paymentsOf response).find? fun p => (member p "status").asStr = some "complete").map
      fun p => max (parseMsat (member p "amount_sent_msat") - parseMsat (member p "amount_msat")) 0

theorem sendpayReplies_append (cs ds : List EngineCall) :
    sendpayReplies (cs ++ ds) = sendpayReplies cs ++ sendpayReplies ds := List.filterMap_append

end Replies

section Rows

inductive RowSwept (id : ℤ) (reply : Except RpcFailure Json) : List EngineCall → Prop where
  | settled (feeMsat : ℤ) (update : HistorySuccess) (costs : List RebalanceCost)
    (reservationId : String) (spent : ℤ) (hfee : settledFee reply = some feeMsat)
    (hcosts : Charged feeMsat costs) : RowSwept id reply
      (.updateHistorySuccess id update ::
        (costs.map .recordRebalanceCost ++ [.markBudgetSpent reservationId spent]))
  | failed (status : String) (err : Option String) (reservationId hash delStatus : String)
    (hfee : settledFee reply = none) : RowSwept id reply [.updateHistory id status err,
      .releaseReservation reservationId, .delpay hash delStatus]
  | open (hfee : settledFee reply = none) : RowSwept id reply []

inductive Swept : List HistoryRow → List EngineCall → Prop where
  | nil : Swept [] []
  | skipped (row : HistoryRow) {rows : List HistoryRow} {calls : List EngineCall}
    (h : ¬ Sweepable row) (rest : Swept rows calls) : Swept (row :: rows) calls
  | asked (row : HistoryRow) (hash : String) (reply : Except RpcFailure Json)
    {rows : List HistoryRow} {close calls : List EngineCall} (h : Sweepable row)
    (hclose : RowSwept row.id reply close) (rest : Swept rows calls) :
      Swept (row :: rows) (.listsendpays hash reply :: (close ++ calls))

theorem silent_peerMapOnce (deps : EngineDeps ω) (peerMap : Option (List (String × String))) :
    Silent (peerMapOnce deps peerMap) := by
  cases peerMap with
  | some mapping => exact Silent.pure mapping
  | none => exact silent_ask.bind fun _ => Silent.pure _

theorem fees_recordSettledCost (deps : EngineDeps ω) (row : HistoryRow) {feeMsat feeSats : ℤ}
    (settledAmountSats : ℤ) (peerMap : Option (List (String × String)))
    (hsats : RouteExecutor.baseToSatsCeil feeMsat = some feeSats) :
    Logs .none (recordSettledCost deps row feeMsat feeSats settledAmountSats peerMap)
      fun _ calls => ∃ costs, calls = costs.map .recordRebalanceCost ∧ Charged feeMsat costs := by
  refine Logs.ite (fun hpos => ?_) fun hpos => Logs.pure ⟨[], rfl, .inr ⟨by omega, rfl⟩⟩
  refine Logs.after_silent (silent_peerMapOnce deps peerMap) fun mapping => ?_
  refine Logs.after_silent silent_ask fun now => Logs.bind (logs_tell trivial) ?_
  rintro _ calls rfl
  exact Logs.pure ⟨[_], rfl, .inl ⟨hpos, _, rfl, rfl, engine_ceil hpos hsats⟩⟩

theorem fees_settleRow (deps : EngineDeps ω) (row : HistoryRow) (settled : Json)
    (peerMap : Option (List (String × String))) {reply : Except RpcFailure Json}
    (hfee : settledFee reply = some (max (parseMsat (member settled "amount_sent_msat") -
      parseMsat (member settled "amount_msat")) 0)) :
    Logs .none (settleRow deps row settled peerMap) fun _ calls => RowSwept row.id reply calls := by
  refine Logs.after_checked fun difference hdifference => Logs.after_checked fun feeSats hsats => ?_
  obtain ⟨-, rfl⟩ := i64?_eq_some.mp hdifference
  refine Logs.bind (logs_tell trivial) ?_
  rintro _ update rfl
  refine Logs.bind (fees_recordSettledCost deps row _ peerMap hsats) ?_
  rintro mapping calls ⟨costs, rfl, hcharged⟩
  refine Logs.bind (logs_tell trivial) ?_
  rintro _ spent rfl
  refine Logs.pure ?_
  rw [List.append_nil]
  exact .settled _ _ costs _ _ hfee hcharged

theorem fees_reconcilePendingRow (deps : EngineDeps ω) (row : HistoryRow)
    (peerMap : Option (List (String × String))) :
    Logs .none (reconcilePendingRow deps row peerMap) fun _ calls =>
      (¬ Sweepable row ∧ calls = []) ∨ ∃ hash reply close, Sweepable row ∧
        calls = .listsendpays hash reply :: close ∧ RowSwept row.id reply close := by
  refine Logs.ite (fun hskip => Logs.pure (.inl ⟨?_, rfl⟩)) fun hask => ?_
  · rintro ⟨hid, hhash⟩
    rcases hskip with hskip | hskip
    · omega
    · exact hhash hskip
  have hsweepable : Sweepable row := by
    obtain ⟨hid, hhash⟩ := not_or.mp hask
    exact ⟨by omega, hhash⟩
  refine Logs.bind (logs_askLogged fun _ => trivial) ?_
  rintro reply calls rfl
  have hend : ∀ close, RowSwept row.id reply close → (¬ Sweepable row ∧
      [.listsendpays (row.paymentHash.getD "") reply] ++ close = []) ∨ ∃ hash r c, Sweepable row ∧
        [.listsendpays (row.paymentHash.getD "") reply] ++ close = .listsendpays hash r :: c ∧
          RowSwept row.id r c :=
    fun close hclose => .inr ⟨_, reply, close, hsweepable, rfl, hclose⟩
  cases reply with
  | error e => exact Logs.pure (hend [] (.open rfl))
  | ok response =>
    refine Logs.ite (fun hpending => Logs.pure (hend [] (.open (if_pos hpending)))) fun hfinal => ?_
    cases hsettled : (paymentsOf response).find? fun p =>
        decide ((member p "status").asStr = some "complete") with
    | some settled =>
      refine (fees_settleRow deps row settled peerMap ?_).mono fun _ close hclose =>
        hend close hclose
      rw [settledFee, if_neg hfinal, hsettled]
      rfl
    | none =>
      refine Logs.bind (logs_tell trivial) ?_
      rintro _ update rfl
      refine Logs.bind (logs_tell trivial) ?_
      rintro _ release rfl
      refine Logs.bind (logs_tell trivial) ?_
      rintro _ delpay rfl
      refine Logs.pure (hend _ (.failed _ _ _ _ _ ?_))
      rw [settledFee, if_neg hfinal, hsettled]
      rfl

theorem fees_reconcileRows (deps : EngineDeps ω) (rows : List HistoryRow)
    (peerMap : Option (List (String × String))) (resolved : ℕ) :
    Logs .none (reconcileRows deps rows peerMap resolved) fun _ calls => Swept rows calls := by
  induction rows generalizing peerMap resolved with
  | nil => exact Logs.pure .nil
  | cons row rows ih =>
    refine Logs.bind (fees_reconcilePendingRow deps row peerMap) ?_
    rintro ⟨done, peerMap⟩ calls hrow
    refine (ih peerMap _).mono fun _ more hmore => ?_
    rcases hrow with ⟨hskip, rfl⟩ | ⟨hash, reply, close, hask, rfl, hclose⟩
    · exact .skipped row hskip hmore
    · exact .asked row hash reply hask hclose hmore

end Rows

section Facts

variable {id : ℤ} {reply : Except RpcFailure Json} {close calls : List EngineCall}
  {rows : List HistoryRow} {row : HistoryRow}

/-- A row's close writes that row, and neither inserts nor parks one. -/
theorem RowSwept.writes (h : RowSwept id reply close) :
    ∀ c ∈ close, kind c ≠ .insertion ∧ kind c ≠ .parking ∧ ∀ i, WritesRow i c → i = id := by
  intro c hc
  cases h with
  | settled feeMsat update costs reservationId spent =>
    rcases List.mem_cons.mp hc with rfl | hc
    · exact ⟨by simp [kind], by simp [kind], fun i hi => hi.symm⟩
    rcases List.mem_append.mp hc with hc | hc
    · obtain ⟨cost, -, rfl⟩ := List.mem_map.mp hc
      simp [kind, WritesRow]
    · obtain rfl := List.mem_singleton.mp hc
      simp [kind, WritesRow]
  | failed status err reservationId hash delStatus =>
    simp only [List.mem_cons, List.not_mem_nil, or_false] at hc
    rcases hc with rfl | rfl | rfl
    · exact ⟨by simp [kind], by simp [kind], fun i hi => hi.symm⟩
    · simp [kind, WritesRow]
    · simp [kind, WritesRow]
  | «open» => cases hc

theorem RowSwept.asksNothing (h : RowSwept id reply close) : sendpayReplies close = [] := by
  cases h with
  | settled feeMsat update costs reservationId spent =>
    refine List.filterMap_eq_nil_iff.mpr fun c hc => ?_
    rcases List.mem_cons.mp hc with rfl | hc
    · rfl
    rcases List.mem_append.mp hc with hc | hc
    · obtain ⟨cost, -, rfl⟩ := List.mem_map.mp hc
      rfl
    · obtain rfl := List.mem_singleton.mp hc
      rfl
  | failed => rfl
  | «open» => rfl

theorem RowSwept.booked (h : RowSwept id reply close) :
    bookings none close = (costCalls close).map (Prod.mk id) := by
  cases h with
  | settled feeMsat update costs reservationId spent hfee hcosts =>
    have hall : costCalls (.updateHistorySuccess id update :: (costs.map .recordRebalanceCost ++
        [.markBudgetSpent reservationId spent])) = costs := by
      rw [costCalls_cons_of_ne (by simp), costCalls_append, costCalls_map]
      exact List.append_nil costs
    rw [hall]
    exact bookings_costs hcosts.length rfl
  | failed => rfl
  | «open» => rfl

theorem RowSwept.charged (h : RowSwept id reply close) {feeMsat : ℤ}
    (hfee : settledFee reply = some feeMsat) :
    Charged feeMsat (costCalls close) ∧ ∃ update, .updateHistorySuccess id update ∈ close := by
  cases h with
  | settled fee update costs reservationId spent hsettled hcosts =>
    obtain rfl := Option.some.inj (hsettled.symm.trans hfee)
    refine ⟨?_, update, List.mem_cons_self⟩
    rw [costCalls_cons_of_ne (by simp), costCalls_append, costCalls_map]
    simpa [costCalls] using hcosts
  | failed _ _ _ _ _ hnone =>
    rw [hnone] at hfee
    cases hfee
  | «open» hnone =>
    rw [hnone] at hfee
    cases hfee

theorem RowSwept.free (h : RowSwept id reply close) (hfee : settledFee reply = none) :
    costCalls close = [] := by
  cases h with
  | settled fee update costs reservationId spent hsettled =>
    rw [hsettled] at hfee
    cases hfee
  | failed => rfl
  | «open» => rfl

theorem Swept.head (h : Swept rows calls) :
    ∀ cost, calls.head? ≠ some (.recordRebalanceCost cost) := by
  induction h with
  | nil => exact fun _ => nofun
  | skipped row h rest ih => exact ih
  | asked row hash reply h hclose rest => exact fun _ => nofun

theorem Swept.bookings_asked {hash : String} (hclose : RowSwept row.id reply close)
    (rest : Swept rows calls) : bookings none (.listsendpays hash reply :: (close ++ calls)) =
      (costCalls close).map (Prod.mk row.id) ++ bookings none calls :=
  (bookings_append rest.head).trans (congrArg (· ++ bookings none calls) hclose.booked)

theorem Swept.writes (h : Swept rows calls) : ∀ c ∈ calls, kind c ≠ .insertion ∧
    kind c ≠ .parking ∧ ∀ i, WritesRow i c → i ∈ rows.map HistoryRow.id := by
  induction h with
  | nil => exact List.forall_mem_nil _
  | skipped row h rest ih =>
    intro c hc
    obtain ⟨hinsert, hpark, hwrites⟩ := ih c hc
    exact ⟨hinsert, hpark, fun i hi => List.mem_cons_of_mem _ (hwrites i hi)⟩
  | asked row hash reply h hclose rest ih =>
    intro c hc
    rcases List.mem_cons.mp hc with rfl | hc
    · simp [kind, WritesRow]
    rcases List.mem_append.mp hc with hc | hc
    · obtain ⟨hinsert, hpark, hwrites⟩ := hclose.writes c hc
      refine ⟨hinsert, hpark, fun i hi => ?_⟩
      rw [hwrites i hi]
      exact List.mem_cons_self
    · obtain ⟨hinsert, hpark, hwrites⟩ := ih c hc
      exact ⟨hinsert, hpark, fun i hi => List.mem_cons_of_mem _ (hwrites i hi)⟩

theorem Swept.booked (h : Swept rows calls) :
    costCalls calls = (bookings none calls).map Prod.snd := by
  induction h with
  | nil => rfl
  | skipped row h rest ih => exact ih
  | asked row hash reply h hclose rest ih =>
    rw [rest.bookings_asked hclose, costCalls_cons_of_ne (by simp), costCalls_append, ih,
      List.map_append, List.map_map]
    exact congrArg (· ++ _) (List.map_id _).symm

theorem answers_cons {hash : String} {more : List EngineCall} (h : Sweepable row)
    (hclose : RowSwept row.id reply close) :
    answers (row :: rows) (.listsendpays hash reply :: (close ++ more)) =
      (row, reply) :: answers rows more := by
  have hreplies : sendpayReplies (.listsendpays hash reply :: (close ++ more)) =
      reply :: sendpayReplies more := by
    have happend := sendpayReplies_append close more
    rw [hclose.asksNothing] at happend
    exact congrArg (reply :: ·) happend
  rw [answers, hreplies, List.filter_cons_of_pos (by simpa using h)]
  rfl

theorem answers_skip {log : List EngineCall} (h : ¬ Sweepable row) :
    answers (row :: rows) log = answers rows log := by
  rw [answers, List.filter_cons_of_neg (by simpa using h)]
  rfl

theorem costsOf_asked {i : ℤ} {hash : String} (hclose : RowSwept row.id reply close)
    (rest : Swept rows calls) : costsOf i (.listsendpays hash reply :: (close ++ calls)) =
      (if row.id = i then costCalls close else []) ++ costsOf i calls := by
  unfold costsOf
  rw [rest.bookings_asked hclose, List.filter_append, List.map_append]
  by_cases hi : row.id = i
  · rw [if_pos hi, ← hi, filter_row_self]
  · rw [if_neg hi, filter_row_other _ hi]

theorem Swept.costsOf_nil (h : Swept rows calls) {i : ℤ}
    (hnone : ∀ row reply, (row, reply) ∈ answers rows calls → row.id = i →
      settledFee reply = none) :
    costsOf i calls = [] := by
  induction h with
  | nil => rfl
  | skipped row h rest ih =>
    rw [answers_skip h] at hnone
    exact ih hnone
  | asked row hash reply h hclose rest ih =>
    rw [answers_cons h hclose] at hnone
    rw [costsOf_asked hclose rest,
      ih fun row reply hmem => hnone row reply (List.mem_cons_of_mem _ hmem), List.append_nil]
    by_cases hi : row.id = i
    · rw [if_pos hi]
      exact hclose.free (hnone row reply List.mem_cons_self hi)
    · exact if_neg hi

theorem mem_answers {log : List EngineCall} (h : (row, reply) ∈ answers rows log) : row ∈ rows :=
  (List.mem_filter.mp (List.of_mem_zip h).1).1

theorem Swept.charged (h : Swept rows calls) (hdistinct : (rows.map HistoryRow.id).Nodup)
    {feeMsat : ℤ} (hmem : (row, reply) ∈ answers rows calls)
    (hfee : settledFee reply = some feeMsat) :
    Charged feeMsat (costsOf row.id calls) ∧
      ∃ update, .updateHistorySuccess row.id update ∈ calls := by
  induction h with
  | nil => simp [answers] at hmem
  | skipped row' h rest ih =>
    rw [answers_skip h] at hmem
    exact ih (List.nodup_cons.mp hdistinct).2 hmem
  | asked row' hash reply' h hclose rest ih =>
    rw [List.map_cons, List.nodup_cons] at hdistinct
    obtain ⟨hfresh, hdistinct⟩ := hdistinct
    rw [answers_cons h hclose] at hmem
    rw [costsOf_asked hclose rest]
    rcases List.mem_cons.mp hmem with heq | hmem
    · cases heq
      obtain ⟨hcharged, update, hupdate⟩ := hclose.charged hfee
      rw [if_pos rfl, rest.costsOf_nil, List.append_nil]
      · exact ⟨hcharged, update, List.mem_cons_of_mem _ (List.mem_append_left _ hupdate)⟩
      · intro other otherReply hother hid
        exact absurd (hid ▸ List.mem_map_of_mem (mem_answers hother)) hfresh
    · obtain ⟨hcharged, update, hupdate⟩ := ih hdistinct hmem
      have hne : row'.id ≠ row.id := by
        intro heq
        exact hfresh (heq ▸ List.mem_map_of_mem (mem_answers hmem))
      rw [if_neg hne]
      exact ⟨hcharged, update, List.mem_cons_of_mem _ (List.mem_append_right _ hupdate)⟩

end Facts

end CostSweeps
