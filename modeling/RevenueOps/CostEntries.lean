import RevenueOps.CostHandlings

/-! Every entry handles the rows that it inserts: the cycle's worker, the explicit and the manual
rebalance, and the diagnostic shock. -/
namespace CostEntries

open FallibleState JsonValue RustNumber RustText RouteExecutor RebalanceEngine RebalanceFacade
open EngineAttempts EngineTrail CostBookings CostHandlings Defibrillator ManualRebalance

variable {ω : Type}

section Worker

theorem fees_worker [UnicodeCase] (deps : EngineDeps ω) (pair : PairCandidate) :
    Logs .none (executePair deps pair true true none) fun _ calls => Handles true calls := by
  refine Logs.after_silent (silent_pairPolicyAllowed deps pair) ?_
  rintro ⟨allowed, reason⟩
  refine Logs.ite (fun _ => Logs.pure (Handles.idle Idle.nil)) fun _ => ?_
  refine Logs.bind (logs_historyId deps pair none) fun rowId rows hrows => ?_
  cases hrows with
  | inserted row id =>
    refine Logs.bind (logs_reservationIdOf pair _) ?_
    rintro reservationId calls ⟨rfl, -⟩
    refine Logs.after_silent (silent_modify fun s => ?_) fun _ => ?_
    · split <;> rfl
    by_cases hpos : 0 < id
    · rw [if_pos hpos]
      refine Logs.bind (fees_reserveAndPay deps pair _ true true id) fun r calls hworked => ?_
      refine Logs.after_silent (silent_modify fun _ => rfl) fun _ => Logs.pure ?_
      exact Handles.single row fun _ => hworked.accounted Plain.nil
    · have hrowless : Rowed none none [.insertOrAdoptHistory row id] := by
        have hrow := Rowed.inserted row id
        rwa [if_neg hpos] at hrow
      rw [if_neg hpos]
      refine Logs.bind (logs_reserveAndPay deps pair reservationId true true none none hrowless
        nofun).unbounded fun r calls _ => ?_
      refine Logs.after_silent (silent_modify fun _ => rfl) fun _ => Logs.pure ?_
      exact Handles.single row fun h => absurd h hpos

end Worker

section Facade

variable {id : ℤ} {cs : List EngineCall}

theorem calls_updateRow {b : Bounds} (deps : EngineDeps ω) (rebalanceId : Option ℤ)
    {call : ℤ → EngineCall} (hb : ∀ id, b.Allows (call id)) :
    Logs b (updateRow deps rebalanceId call) fun _ calls =>
      calls = (rebalanceId.map call).toList := by
  cases rebalanceId with
  | none => exact Logs.pure rfl
  | some id => exact logs_tell (hb id)

theorem plain_failedRow (rebalanceId : Option ℤ) (status : String) (err : Option String)
    (h : ∀ i, rebalanceId = some i → i = id) :
    Plain id (rebalanceId.map fun i => EngineCall.updateHistory i status err).toList := by
  cases rebalanceId with
  | none => exact Plain.nil
  | some i =>
    obtain rfl := h i rfl
    refine ⟨List.forall_mem_singleton.mpr ⟨by simp [kind], fun j hj => hj.symm⟩, rfl, rfl, rfl⟩

theorem reportedFee_unaccounted (r : ExecutionResult) : reportedFee false r = max r.feeMsat 0 := by
  unfold reportedFee
  split <;> simp <;> omega

theorem fees_recordSuccessfulRebalanceFee (deps : EngineDeps ω) (rebalanceId : Option ℤ)
    (channelId peerId : String) (amountSats : ℤ) (r : ExecutionResult) :
    Logs .none (recordSuccessfulRebalanceFee deps rebalanceId channelId peerId amountSats r.feeMsat)
      fun _ calls => ∀ id, rebalanceId = some id → SelfBooked id (reportedFee false r) calls := by
  refine Logs.bind (calls_updateRow deps rebalanceId fun _ => trivial) ?_
  rintro _ calls rfl
  rw [reportedFee_unaccounted]
  refine Logs.ite (fun hpos => ?_) fun hpos => Logs.pure ?_
  · refine Logs.after_silent silent_ask fun now => Logs.bind (logs_tell trivial) ?_
    rintro _ calls rfl
    refine Logs.pure ?_
    rintro id rfl
    refine ⟨_, [_], [], rfl, .inl ⟨hpos, _, rfl, rfl, ?_⟩, Idle.nil⟩
    exact facade_ceil _
  · rintro id rfl
    exact ⟨_, [], [], rfl, .inr ⟨by omega, rfl⟩, Idle.nil⟩

theorem fees_closeSuccess (deps : EngineDeps ω) (candidate : RebalanceCandidate)
    (opts : ExecuteOpts) (rowId : ℤ) (rebalanceId : Option ℤ) (reserved : Bool)
    (r : ExecutionResult) :
    Logs .none (closeSuccess deps candidate opts rowId rebalanceId reserved r) fun _ calls =>
      ∀ id, rebalanceId = some id → SelfBooked id (reportedFee false r) calls := by
  refine Logs.bind (fees_recordSuccessfulRebalanceFee deps rebalanceId _ _ _ r)
    fun fee book hbook => ?_
  refine Logs.bind (idle_tell trivial rfl) fun _ reset hreset => ?_
  refine Logs.bind (idle_tell trivial rfl) fun _ decision hdecision => ?_
  have hend : ∀ spent, Idle spent → ∀ id, rebalanceId = some id →
      SelfBooked id (reportedFee false r) (book ++ (reset ++ (decision ++ spent))) :=
    fun spent hspent id hid => (hbook id hid).append (hreset.append (hdecision.append hspent))
  refine Logs.ite (fun _ => ?_) fun _ => Logs.pure (hend [] Idle.nil)
  refine Logs.bind (idle_tell trivial rfl) fun _ spent hspent => Logs.pure ?_
  rw [List.append_nil]
  exact hend spent hspent

theorem fees_closeFailure [UnicodeCase] (deps : EngineDeps ω) (candidate : RebalanceCandidate)
    (opts : ExecuteOpts) (rowId : ℤ) (rebalanceId : Option ℤ) (reserved : Bool)
    (r : ExecutionResult) :
    Logs .none (closeFailure deps candidate opts rowId rebalanceId reserved r) fun _ calls =>
      ∀ id, rebalanceId = some id → Plain id calls := by
  have hrow : ∀ id, rebalanceId = some id → ∀ status err, Plain id
      ((if r.paymentPending then none else rebalanceId).map fun i =>
        EngineCall.updateHistory i status err).toList := by
    rintro id rfl status err
    refine plain_failedRow _ status err fun i hi => ?_
    by_cases hpending : r.paymentPending = true
    · rw [if_pos hpending] at hi
      cases hi
    · rw [if_neg hpending] at hi
      exact (Option.some.inj hi).symm
  refine Logs.bind (calls_updateRow deps _ fun _ => trivial) ?_
  rintro _ first rfl
  refine Logs.bind (idle_tell trivial rfl) fun _ count hcount => ?_
  refine Logs.bind (idle_tell trivial rfl) fun _ decision hdecision => ?_
  refine Logs.bind (calls_updateRow deps _ fun _ => trivial) ?_
  rintro _ second rfl
  refine Logs.ite (fun _ => ?_) fun _ => Logs.pure fun id hid => ?_
  · refine Logs.bind (idle_tell trivial rfl) fun _ release hrelease => Logs.pure fun id hid => ?_
    exact (hrow id hid _ _).append ((plain_of_idle hcount id).append
      ((plain_of_idle hdecision id).append ((hrow id hid _ _).append
        ((plain_of_idle hrelease id).append Plain.nil))))
  · exact (hrow id hid _ _).append ((plain_of_idle hcount id).append
      ((plain_of_idle hdecision id).append ((hrow id hid _ _).append Plain.nil)))

theorem fees_runAndClose [UnicodeCase] (deps : EngineDeps ω) (candidate : RebalanceCandidate)
    (opts : ExecuteOpts) (id : ℤ) (reserved : Bool) :
    Logs .none (runAndClose deps candidate opts id (if 0 < id then some id else none) reserved)
      fun _ calls => 0 < id → Handled false id calls := by
  refine Logs.bind (fees_executeCandidate deps candidate id (engineKwargs .manual))
    fun r calls hworked => ?_
  refine Logs.ite (fun hsuccess => ?_) fun hfailed => ?_
  · refine (fees_closeSuccess deps candidate opts id _ reserved r).mono
      fun _ close hclose hpos => ?_
    exact (hworked hpos).selfBooked hsuccess (hclose id (if_pos hpos))
  · refine (fees_closeFailure deps candidate opts id _ reserved r).mono
      fun _ close hclose hpos => ?_
    exact (hworked hpos).unaccounted (by simpa using hfailed) (hclose id (if_pos hpos))

theorem fees_executeRebalance [UnicodeCase] (deps : EngineDeps ω) (config : FacadeConfig)
    (candidate : RebalanceCandidate) (enforceBudget : Bool) (opts : ExecuteOpts) :
    Logs .none (executeRebalance deps config candidate enforceBudget opts)
      fun _ calls => Handles false calls := by
  refine Logs.ite (fun _ => ?_) fun _ => ?_
  · refine Logs.bind (idle_tell trivial rfl) fun _ decision hdecision => Logs.pure ?_
    exact Handles.idle (hdecision.append Idle.nil)
  refine Logs.bind (logs_askLogged fun _ => trivial) ?_
  rintro id calls rfl
  refine Logs.ite (fun _ => ?_) fun _ => ?_
  · refine Logs.bind (HeldReservations.logs_reserve deps config candidate opts id) ?_
    rintro block calls ⟨req, -, rfl⟩
    have hreserve : Idle [.reserveBudget req block] := List.forall_mem_singleton.mpr rfl
    cases block with
    | some block =>
      refine Logs.bind (idle_tell trivial rfl) fun _ decision hdecision => ?_
      refine Logs.bind (calls_updateRow deps _ fun _ => trivial) ?_
      rintro _ update rfl
      refine Logs.pure (Handles.single _ fun hpos => ?_)
      rw [if_pos hpos]
      have hclose : ∀ status err, Plain id
          (decision ++ ([EngineCall.updateHistory id status err] ++ [])) := fun status err =>
        (plain_of_idle hdecision id).append
          ((plain_failedRow (some id) status err fun i hi =>
            (Option.some.inj hi).symm).append Plain.nil)
      exact (Handled.of_plain (hclose _ _)).after_idle hreserve
    | none =>
      refine (fees_runAndClose deps candidate opts id true).mono fun _ calls h => ?_
      exact Handles.single _ fun hpos => (h hpos).after_idle hreserve
  · refine (fees_runAndClose deps candidate opts id false).mono fun _ calls h => ?_
    exact Handles.single _ h

end Facade

section Manual

theorem silent_tryChannelsWithBalances (facade : FacadeDeps ω) :
    Silent (tryChannelsWithBalances facade) := by
  refine silent_ask.bind fun funds => ?_
  cases funds with
  | error e => exact Silent.pure _
  | ok funds =>
    refine silent_ask.bind fun peers => ?_
    cases peers with
    | error e => exact Silent.pure _
    | ok peers => exact Silent.pure _

theorem silent_channelsWithBalances (facade : FacadeDeps ω) :
    Silent (channelsWithBalances facade) := by
  refine (silent_tryChannelsWithBalances facade).bind fun channels => ?_
  cases channels with
  | some channels => exact Silent.pure _
  | none => exact (silent_tryChannelsWithBalances facade).bind fun channels => Silent.pure _

theorem silent_checked {α : Type} (o : Option α) : Silent (Eff.checked o : Engine ω α) := by
  intro s
  refine (wp_checked _ _ _).mpr ⟨fun a _ => ⟨[], Extends.nil rfl, rfl⟩, fun _ => ?_⟩
  exact ⟨[], Extends.nil rfl⟩

theorem silent_checkCapitalControls (deps : EngineDeps ω) (facade : FacadeDeps ω)
    (config : DiagnosticConfig) : Silent (checkCapitalControls deps facade config) := by
  have hreserve : Silent (reserveHeld facade config) := by
    refine silent_ask.bind fun funds => ?_
    cases funds with
    | error e => exact Silent.pure _
    | ok funds => exact (silent_checked _).bind fun reserve => Silent.pure _
  refine hreserve.bind fun reserved => Logs.ite (fun _ => Silent.pure _) fun _ => ?_
  refine silent_ask.bind fun now => (silent_checked _).bind fun window => ?_
  refine (silent_checked _).bind fun since => silent_ask.bind fun spent => ?_
  refine Logs.ite (fun _ => Silent.pure _) fun _ => (silent_checked _).bind fun weekAgo => ?_
  exact silent_ask.bind fun weekly => Silent.pure _

theorem fees_closeManual (deps : EngineDeps ω) (id : ℤ) (toChannel toPeerId : String)
    (amountSats : ℤ) (r : ExecutionResult) :
    Logs .none (closeManual deps id toChannel toPeerId amountSats r) fun _ calls => 0 < id →
      (r.success = true → SelfBooked id (reportedFee false r) calls) ∧
        (r.success = false → Plain id calls) := by
  refine Logs.ite (fun hsuccess => ?_) fun hsuccess => ?_
  · refine Logs.bind (fees_recordSuccessfulRebalanceFee deps _ _ _ _ r) fun fee calls hbook => ?_
    refine Logs.pure fun hpos => ⟨fun _ => ?_, fun hfailed => ?_⟩
    · rw [List.append_nil]
      exact hbook id (if_pos hpos)
    · rw [hsuccess] at hfailed
      cases hfailed
  · have hend : ∀ calls, Plain id calls → 0 < id →
        (r.success = true → SelfBooked id (reportedFee false r) calls) ∧
          (r.success = false → Plain id calls) :=
      fun calls hplain _ => ⟨fun h => absurd h hsuccess, fun _ => hplain⟩
    refine Logs.ite (fun _ => ?_) fun _ => Logs.pure (hend [] Plain.nil)
    refine Logs.bind (plain_update deps _ _) fun _ calls hplain => Logs.pure ?_
    exact hend _ (hplain.append Plain.nil)

theorem fees_pushManually [UnicodeCase] (deps : EngineDeps ω) (facade : FacadeDeps ω)
    (fromChannel toChannel : String) (source dest : ChannelBalance) (amountSats : ℤ)
    (maxFeeSats : Option ℤ) :
    Logs .none (pushManually deps facade fromChannel toChannel source dest amountSats maxFeeSats)
      fun _ calls => Handles false calls := by
  refine Logs.after_silent silent_ask fun estimated => Logs.after_checked fun inboundFee _ => ?_
  refine Logs.after_checked fun margin _ => Logs.after_checked fun spreadPpm _ => ?_
  refine Logs.after_checked fun _ _ => Logs.after_checked fun _ _ => ?_
  refine Logs.bind (logs_askLogged fun _ => trivial) ?_
  rintro id calls rfl
  refine Logs.bind (fees_executeCandidate deps _ id (engineKwargs .manual))
    fun r calls hworked => ?_
  refine (fees_closeManual deps id _ _ _ r).mono fun _ close hclose => ?_
  refine Handles.single _ fun hpos => ?_
  obtain ⟨hbooked, hplain⟩ := hclose hpos
  cases hsuccess : r.success with
  | true => exact (hworked hpos).selfBooked hsuccess (hbooked hsuccess)
  | false => exact (hworked hpos).unaccounted hsuccess (hplain hsuccess)

theorem fees_manualRebalance [UnicodeCase] (deps : EngineDeps ω) (facade : FacadeDeps ω)
    (config : ManualConfig) (fromChannel toChannel : String) (amountSats : ℤ)
    (maxFeeSats : Option ℤ) (force : Bool) :
    Logs .none
      (manualRebalance deps facade config fromChannel toChannel amountSats maxFeeSats force)
      fun _ calls => Handles false calls := by
  refine Logs.after_silent (silent_checkCapitalControls deps facade _) fun capitalOk => ?_
  refine Logs.after_silent (silent_channelsWithBalances facade) fun channels => ?_
  have hmissing : Handles false [] := Handles.idle Idle.nil
  cases channels.find? fun c => c.1 = xForm fromChannel with
  | none => exact Logs.pure hmissing
  | some source =>
    cases channels.find? fun c => c.1 = xForm toChannel with
    | none => exact Logs.pure hmissing
    | some dest =>
      refine Logs.bind (fees_pushManually deps facade _ _ _ _ _ _) fun entries calls h => ?_
      refine Logs.pure ?_
      rwa [List.append_nil]

end Manual

section Diagnostic

theorem fees_shock [UnicodeCase] (deps : EngineDeps ω) (candidate : RebalanceCandidate)
    (row : HistoryRow) :
    Logs .none (shock deps candidate row) fun _ calls => ∃ id rest,
      calls = .insertOrAdoptHistory row id :: rest ∧ (0 < id → Handled true id rest) := by
  refine Logs.bind (logs_askLogged fun _ => trivial) ?_
  rintro id calls rfl
  refine Logs.bind (fees_executeCandidate deps candidate id (engineKwargs .diagnostic))
    fun r calls hworked => ?_
  have hend : ∀ tail, Plain id tail → ∃ i rest,
      [.insertOrAdoptHistory row id] ++ (calls ++ tail) = .insertOrAdoptHistory row i :: rest ∧
        (0 < i → Handled true i rest) :=
    fun tail htail => ⟨id, calls ++ tail, rfl, fun hpos => (hworked hpos).accounted htail⟩
  refine Logs.ite (fun _ => ?_) fun _ => Logs.pure (hend [] Plain.nil)
  refine Logs.bind (plain_update deps _ _) fun _ tail htail => Logs.pure ?_
  rw [List.append_nil]
  exact hend tail htail

theorem Handles.cons {row : HistoryRow} {id : ℤ} {rest more : List EngineCall}
    (h : 0 < id → Handled true id rest) (hmore : ∃ handlings : List Handling,
      more = handlings.flatMap Handling.log ∧ ∀ h ∈ handlings,
        0 < h.id → Handled true h.id h.calls) :
    ∃ handlings : List Handling,
      .insertOrAdoptHistory row id :: rest ++ more = handlings.flatMap Handling.log ∧
        ∀ h ∈ handlings, 0 < h.id → Handled true h.id h.calls := by
  obtain ⟨handlings, rfl, hall⟩ := hmore
  exact ⟨⟨row, id, rest⟩ :: handlings, rfl, List.forall_mem_cons.mpr ⟨h, hall⟩⟩

theorem fees_shockSources [UnicodeCase] (deps : EngineDeps ω) (channelId destPeerId : String)
    (maxFeeSats maxFeePpm : ℤ) (sources : List (String × ChannelBalance)) (initial : ShockOutcome) :
    Logs .none (shockSources deps channelId destPeerId maxFeeSats maxFeePpm sources initial)
      fun _ calls => ∃ handlings : List Handling, calls = handlings.flatMap Handling.log ∧
        ∀ h ∈ handlings, 0 < h.id → Handled true h.id h.calls := by
  induction sources generalizing initial with
  | nil => exact Logs.pure ⟨[], rfl, List.forall_mem_nil _⟩
  | cons source sources ih =>
    refine Logs.bind (fees_shock deps _ _) ?_
    rintro r calls ⟨id, rest, rfl, hrest⟩
    refine Logs.ite (fun _ => ?_) fun _ => Logs.pure ?_
    · exact (ih _).mono fun _ more hmore => Handles.cons hrest hmore
    · exact Handles.cons hrest ⟨[], rfl, List.forall_mem_nil _⟩

theorem fees_diagnosticRebalance [UnicodeCase] (deps : EngineDeps ω) (facade : FacadeDeps ω)
    (config : DiagnosticConfig) (channelId : String) :
    Logs .none (diagnosticRebalance deps facade config channelId) fun _ calls =>
      Handles true calls := by
  have hidle : Handles true [] := Handles.idle Idle.nil
  refine Logs.after_silent (silent_modify fun _ => rfl) fun _ => ?_
  refine Logs.after_silent (silent_channelsWithBalances facade) fun channels => ?_
  cases channels.find? fun c => c.1 = channelId with
  | none => exact Logs.pure hidle
  | some dest =>
    refine Logs.ite (fun _ => Logs.pure hidle) fun _ => ?_
    refine Logs.after_silent silent_ask fun fee => Logs.after_checked fun _ _ => ?_
    refine Logs.after_silent (silent_checkCapitalControls deps facade config) fun allowed => ?_
    refine Logs.ite (fun _ => Logs.pure hidle) fun _ => ?_
    refine Logs.bind (fees_shockSources deps channelId _ _ _ _ _) ?_
    rintro outcome calls ⟨handlings, rfl, hall⟩
    exact Logs.pure ⟨[], handlings, Idle.nil, by simp, hall⟩

end Diagnostic

end CostEntries
