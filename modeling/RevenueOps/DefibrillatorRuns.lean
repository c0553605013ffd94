import RevenueOps.DefibrillatorLaw

/-! The shocks of a list of sources, each with the replies that its execution met. -/
namespace Defibrillator

open FallibleState JsonValue RustNumber RustText OutputLogic StableSelection
open RouteExecutor (RpcFailure ExecutionResult ExecuteRequest)
open RebalanceEngine RebalanceFacade

variable {ω α : Type}

section Executions

variable (seams : ShockSeams ω)

structure Told (c : Course) (r : ExecutionResult) : Prop where
  success : r.success = true ↔ c.Succeeded
  pending : r.paymentPending = true ↔ c.Pending
  mentions : r.success = false → r.paymentPending = false → ∀ text ∈ decisive,
    (contains (errorText r) text = true ↔ c.Mentions text)

theorem Unpaid.told {r : ExecutionResult} (h : Unpaid r)
    (prices : List (Option (Except RpcFailure RouteResult))) :
    Told (.unpaid prices (errorText r)) r := by
  constructor
  · simp [h.1, Course.Succeeded, Course.Replied]
  · simp [h.2, Course.Pending, Course.Replied]
  · exact fun _ _ _ _ => Iff.rfl

theorem Retried.told {first r q : ExecutionResult} {retry : Retry} {rungs : List Rung}
    (h : Retried first retry r) (k : Laddered r rungs q) (route : RouteResult) (sent cut : Bool) :
    Told (.paid route first sent retry rungs cut) q := by
  constructor
  · rw [k.success, h.outcome.success]
    rfl
  · rw [k.pending, h.outcome.pending]
    rfl
  · intro hs hp text htext
    rw [k.mentions hs hp text htext, h.mentions text htext]
    rfl

def PaidTail (r : ExecutionResult) (new : List Event) : Prop :=
  ∃ first sent retry rungs cut, new = .attempt first sent ::
    (retry.events ++ ladderEvents rungs cut) ∧
    ∀ route, Course.Fits (.paid route first sent retry rungs cut) ∧
      Told (.paid route first sent retry rungs cut) r

theorem adds_payAndClose [UnicodeCase] (pair : PairCandidate) (reservationId : String)
    (reservedBudget accountCosts : Bool) (rebalanceId : Option ℤ) :
    Adds trail Event.IsReply
      (payAndClose (witnessed seams) pair reservationId reservedBudget accountCosts
      rebalanceId) (Returning PaidTail) := by
  refine (adds_executeRequest seams pair).bindReturning fun first new hfirst => ?_
  obtain ⟨sent, rfl⟩ := hfirst
  refine (adds_retryWithExclusions seams pair first).bindReturning fun retried new hretry => ?_
  obtain ⟨retry, rfl, hretried⟩ := hretry
  refine (adds_retryWithPartialAmounts seams _ _).bindReturning fun laddered new hladder => ?_
  obtain ⟨rungs, cut, rfl, hladdered⟩ := hladder
  refine Adds.afterQuiet (quiet_recordRebalanceResult seams _ _ _ _) fun _ => ?_
  refine Adds.afterQuiet (quiet_finishExecutionBudget seams _ _ _) fun _ => ?_
  have htail :
      PaidTail laddered.1 (.attempt first sent :: (retry.events ++ ladderEvents rungs cut)) :=
    ⟨first, sent, retry, rungs, cut, rfl, fun route =>
      ⟨⟨hretried.fits, hladdered.fits⟩, hretried.told hladdered route _ _⟩⟩
  have hend : Adds trail Event.IsReply (pure laddered.1 : Engine (Witnessed ω) ExecutionResult)
      (Returning fun r more => PaidTail r ([.attempt first sent] ++ (retry.events ++
        (ladderEvents rungs cut ++ more)))) := by
    refine Adds.pure ?_
    simpa [Returning] using htail
  refine Adds.ite (fun _ => ?_) fun _ => hend
  exact Adds.afterQuiet (quiet_pushSegmentObservationSnapshot seams) fun _ => hend

def PaidOrNot (r : ExecutionResult) (new : List Event) : Prop :=
  (new = [] ∧ Unpaid r) ∨ PaidTail r new

theorem adds_reserveAndPay [UnicodeCase] (pair : PairCandidate) (reservationId : String)
    (reserveBudget accountCosts : Bool) (rebalanceId : Option ℤ) :
    Adds trail Event.IsReply
      (reserveAndPay (witnessed seams) pair reservationId reserveBudget accountCosts
      rebalanceId) (Returning PaidOrNot) := by
  have hpay :
      ∀ reserved, Adds trail Event.IsReply
        (payAndClose (witnessed seams) pair reservationId reserved
      accountCosts rebalanceId) (Returning PaidOrNot) := by
    intro reserved
    refine (adds_payAndClose seams pair _ _ _ _).mono fun r new hr => ?_
    cases r with
    | ok r => exact .inr hr
    | err e => trivial
    | panic => trivial
  refine Adds.ite (fun _ => ?_) fun _ => hpay false
  refine (adds_reserveExecutionBudget seams pair reservationId).bindReturning fun out new hout => ?_
  obtain ⟨reserved, block⟩ := out
  obtain ⟨rfl, hblock⟩ := hout
  cases block with
  | some r =>
    refine Adds.afterQuiet (quiet_recordRebalanceResult seams _ _ _ _) fun _ => Adds.pure ?_
    exact .inl ⟨rfl, hblock r rfl⟩
  | none => exact hpay reserved

theorem quiet_registerInflight (dest : String) :
    Quiet trail Event.IsReply (registerInflight dest : Engine (Witnessed ω) Unit) := by
  refine Quiet.modify fun s => ?_
  by_cases h : dest = ""
  · rw [if_pos h]
  · rw [if_neg h]
    rfl

theorem adds_executePair [UnicodeCase] (pair : PairCandidate) (reserveBudget accountCosts : Bool)
    (rebalanceId : Option ℤ) :
    Adds trail Event.IsReply
      (executePair (witnessed seams) pair reserveBudget accountCosts rebalanceId)
      (Returning PaidOrNot) := by
  refine Adds.afterQuiet (quiet_pairPolicyAllowed seams pair) fun policy => ?_
  refine Adds.ite (fun _ => Adds.pure (.inl ⟨rfl, rfl, rfl⟩)) fun _ => ?_
  refine Adds.afterQuiet (quiet_historyId seams pair rebalanceId) fun rowId => ?_
  refine Adds.afterQuiet (quiet_reservationIdOf pair rowId) fun reservationId => ?_
  refine Adds.afterQuiet (quiet_registerInflight pair.destChannelId) fun _ => ?_
  refine (adds_reserveAndPay seams pair _ _ _ _).bindReturning fun r new hr => ?_
  refine Adds.afterQuiet (Quiet.modify ?_) fun _ => Adds.pure ?_
  · exact fun _ => rfl
  · have hkept : PaidOrNot r (new ++ []) := by rwa [List.append_nil]
    exact hkept

/-- What one execute_candidate leaves on the trail. -/
def Executed (r : ExecutionResult) (new : List Event) : Prop :=
  ∃ course : Course, new = course.events ∧ course.Fits ∧ Told course r

theorem executed_failed (error : String) (amountSats : ℤ)
    (prices : List (Option (Except RpcFailure RouteResult))) :
    Executed (failedResult error amountSats) (prices.map .price) := by
  have hunpaid : Unpaid (failedResult error amountSats) := ⟨rfl, rfl⟩
  exact ⟨.unpaid prices error, rfl, trivial, hunpaid.told prices⟩

theorem PaidOrNot.executed {r : ExecutionResult} {new : List Event} (h : PaidOrNot r new)
    (route : RouteResult) : Executed r (.price (some (.ok route)) :: new) := by
  rcases h with ⟨rfl, hr⟩ | ⟨first, sent, retry, rungs, cut, rfl, hr⟩
  · exact ⟨.unpaid [some (.ok route)] (errorText r), rfl, trivial, hr.told _⟩
  · exact ⟨.paid route first sent retry rungs cut, by simp [Course.events, ladderEvents], hr route⟩

theorem adds_executeCandidateLocked [UnicodeCase] (candidate : RebalanceCandidate)
    (rebalanceId : Option ℤ) (kw : EngineKwargs) :
    Adds trail Event.IsReply (executeCandidateLocked (witnessed seams) candidate rebalanceId kw)
      (Returning Executed) := by
  have hnone : ∀ error amountSats, Executed (failedResult error amountSats) [] :=
    fun error amountSats => executed_failed error amountSats []
  have hprice : ∀ error amountSats price, Executed (failedResult error amountSats) [.price price] :=
    fun error amountSats price => executed_failed error amountSats [price]
  refine Adds.afterQuiet (Quiet.read _) fun inflight => ?_
  refine Adds.ite (fun _ => Adds.pure (hnone _ _)) fun _ => ?_
  refine Adds.ite (fun _ => Adds.pure (hnone _ _)) fun _ => ?_
  refine Adds.ite (fun _ => Adds.pure (hnone _ _)) fun _ => ?_
  refine Adds.ite (fun _ => Adds.pure (hnone _ _)) fun _ => ?_
  refine (adds_routePairFresh seams _ _).bindReturning fun priced new hnew => ?_
  subst hnew
  match priced with
  | none => exact Adds.pure (hprice _ _ _)
  | some (.error exc) => exact Adds.pure (hprice _ _ _)
  | some (.ok route) =>
    refine Adds.ite (fun _ => Adds.pure (hprice _ _ _)) fun _ => ?_
    refine (adds_executePair seams _ _ _ _).mono fun r new hr => ?_
    cases r with
    | ok r => exact hr.executed route
    | err e => trivial
    | panic => trivial

theorem adds_executeCandidate [UnicodeCase] (candidate : RebalanceCandidate) (rebalanceId : ℤ)
    (kw : EngineKwargs) :
    Adds trail Event.IsReply (executeCandidate (witnessed seams) candidate rebalanceId kw)
      (Returning Executed) := by
  refine Adds.afterQuiet quiet_unseen fun free => Adds.ite (fun _ => Adds.pure ?_) fun _ => ?_
  · exact executed_failed engineBusy _ []
  · exact adds_executeCandidateLocked seams candidate _ kw

end Executions

section Shocks

/-- An execution for a source: it returned, or it panicked on the way. -/
inductive Shock where
  | returned (source : String × ChannelBalance) (course : Course)
  | broken (source : String × ChannelBalance) (events : List Event)

def Shock.source : Shock → String × ChannelBalance
  | .returned source _ => source
  | .broken source _ => source

def Shock.events : Shock → List Event
  | .returned source course => .shock source.1 :: course.events
  | .broken source events => .shock source.1 :: events

def Shock.Sent (s : Shock) : Prop := ∃ reply, Event.attempt reply true ∈ s.events

def Shock.Succeeded : Shock → Prop
  | .returned _ course => course.Succeeded
  | .broken _ _ => False

inductive Issued : List (String × ChannelBalance) → List Shock → Prop where
  | done : Issued [] []
  | broken (source events sources) (replies : ∀ e ∈ events, Event.IsReply e) :
      Issued (source :: sources) [.broken source events]
  | stopped (source course sources) (fits : course.Fits) (h : ¬ course.Advances) :
      Issued (source :: sources) [.returned source course]
  | advanced (source course) {sources shocks} (fits : course.Fits) (h : course.Advances)
      (rest : Issued sources shocks) :
      Issued (source :: sources) (.returned source course :: shocks)

theorem Issued.sources_prefix {sources : List (String × ChannelBalance)} {shocks : List Shock}
    (h : Issued sources shocks) : shocks.map Shock.source <+: sources := by
  induction h with
  | done => exact List.prefix_rfl
  | broken source events sources => exact ⟨sources, rfl⟩
  | stopped source course sources => exact ⟨sources, rfl⟩
  | advanced source course fits h rest ih => exact List.cons_prefix_cons.mpr ⟨rfl, ih⟩

theorem Issued.followed {sources : List (String × ChannelBalance)} {shocks : List Shock}
    (h : Issued sources shocks) {before : List Shock} {a b : Shock} {after : List Shock}
    (hsplit : shocks = before ++ a :: b :: after) :
    ∃ source course, a = .returned source course ∧ course.Advances := by
  induction h generalizing before with
  | done => simp at hsplit
  | broken source events sources =>
    have hlength := congrArg List.length hsplit
    simp at hlength
    omega
  | stopped source course sources =>
    have hlength := congrArg List.length hsplit
    simp at hlength
    omega
  | advanced source course fits h rest ih =>
    cases before with
    | nil =>
      obtain ⟨rfl, -⟩ := List.cons.inj hsplit
      exact ⟨source, course, rfl, h⟩
    | cons first before => exact ih (List.cons.inj hsplit).2

/-- A shock that advanced is followed by another one, unless its source was the last. -/
theorem Issued.follows {sources : List (String × ChannelBalance)} {shocks : List Shock}
    (h : Issued sources shocks) {before : List Shock} {source : String × ChannelBalance}
    {course : Course} {after : List Shock}
    (hsplit : shocks = before ++ .returned source course :: after)
    (hadvances : course.Advances) (hmore : before.length + 1 < sources.length) : after ≠ [] := by
  induction h generalizing before with
  | done => simp at hsplit
  | broken other events sources =>
    cases before with
    | nil => cases (List.cons.inj hsplit).1
    | cons first before => simp at hsplit
  | stopped other course' sources fits h =>
    cases before with
    | nil =>
      cases (List.cons.inj hsplit).1
      exact absurd hadvances h
    | cons first before => simp at hsplit
  | @advanced other course' sources shocks fits h rest ih =>
    cases before with
    | nil =>
      obtain ⟨-, rfl⟩ := List.cons.inj hsplit
      rintro rfl
      cases rest
      simp at hmore
    | cons first before => exact ih (List.cons.inj hsplit).2 (by simpa using hmore)

theorem Told.triesNext_iff {c : Course} {r : ExecutionResult} (h : Told c r) :
    triesNext r = true ↔ c.Advances := by
  unfold Course.Advances
  rw [← h.success, ← h.pending]
  cases hs : r.success with
  | true => simp [triesNext, judgeShock, hs]
  | false =>
    cases hp : r.paymentPending with
    | true => simp [triesNext, judgeShock, hs, hp]
    | false =>
      have hblock := h.mentions hs hp localBudgetBlock List.mem_cons_self
      have hmarkers : isSourceRouteFailure r.error = true ↔
          ∃ marker ∈ sourceRouteFailureMarkers, c.Mentions marker := by
        rw [isSourceRouteFailure, List.any_eq_true]
        refine exists_congr fun marker => and_congr_right fun hmarker => ?_
        exact h.mentions hs hp marker (List.mem_cons_of_mem _ hmarker)
      rw [← hblock, ← hmarkers]
      simp [triesNext, judgeShock, hs, hp]

variable (seams : ShockSeams ω)

def ShockLeaves (source : String) : Outcome Empty ExecutionResult → List Event → Prop
  | .ok r, new => ∃ course : Course, new = .shock source :: course.events ∧
  course.Fits ∧ Told course r
  | _, new => ∃ events, new = .shock source :: events ∧ ∀ e ∈ events, Event.IsReply e

theorem adds_shock [UnicodeCase] (candidate : RebalanceCandidate) (row : HistoryRow)
    (hrow : row.rebalanceType = "diagnostic") :
    Adds trail (fun _ => True) (shock (witnessed seams) candidate row)
      (ShockLeaves row.fromChannel) := by
  have hinsert : Adds trail (fun _ => True) (askLogged ((witnessed seams).insertOrAdoptHistory row)
      (.insertOrAdoptHistory row)) fun r new => new = [.shock row.fromChannel] := by
    intro s
    rw [wp_ofRel]
    exact ⟨_, rfl, by simp, if_pos hrow⟩
  have hexecute : ∀ id, Adds trail (fun _ => True) (executeCandidate (witnessed seams) candidate id
      (engineKwargs .diagnostic)) fun r new =>
        (∀ e ∈ new, Event.IsReply e) ∧ Returning Executed r new := by
    intro id
    exact (adds_executeCandidate seams candidate id _).widen (fun _ _ => trivial)
      fun r new hnew hr => ⟨hnew, hr⟩
  refine hinsert.bind (fun id new hnew => ?_) (fun e => e.elim) fun new hnew => ?_
  · subst hnew
    refine (hexecute id).bind (fun r new hnew => ?_) (fun e => e.elim) fun new hnew => ?_
    · obtain ⟨hreplies, course, rfl, hfits, htold⟩ := hnew
      have hend : Adds trail (fun _ => True) (pure r : Engine (Witnessed ω) ExecutionResult)
          fun r more => ShockLeaves row.fromChannel r
            ([.shock row.fromChannel] ++ (course.events ++ more)) :=
        Adds.pure ⟨course, by simp, hfits, htold⟩
      refine Adds.ite (fun _ => ?_) fun _ => hend
      refine Adds.bind (quiet_tell seams _) (fun _ new hnew => ?_) (fun e => e.elim) ?_
      · subst hnew
        exact hend
      · rintro new rfl
        exact ⟨course.events ++ [], rfl, by simpa using hreplies⟩
    · exact ⟨new, rfl, hnew.1⟩
  · exact ⟨[], hnew, by simp⟩

def Swept (sources : List (String × ChannelBalance)) (initial : ShockOutcome) :
    Outcome Empty ShockOutcome → List Event → Prop
  | r, new => ∃ shocks : List Shock, new = shocks.flatMap Shock.events ∧ Issued sources shocks ∧
    ∀ outcome, r = .ok outcome → outcome.shockOk = true →
      initial.shockOk = true ∨ ∃ last, shocks.getLast? = some last ∧ last.Succeeded

theorem adds_shockSources [UnicodeCase] (channelId destPeerId : String)
    (maxFeeSats maxFeePpm : ℤ) (sources : List (String × ChannelBalance)) (initial : ShockOutcome) :
    Adds trail (fun _ => True) (shockSources (witnessed seams) channelId destPeerId maxFeeSats
      maxFeePpm sources initial) (Swept sources initial) := by
  induction sources generalizing initial with
  | nil =>
    refine Adds.pure ⟨[], rfl, .done, fun outcome h hok => .inl ?_⟩
    cases h
    exact hok
  | cons source sources ih =>
    have hbroken : ∀ (r : Outcome Empty ShockOutcome) events, (∀ outcome, r ≠ .ok outcome) →
        (∀ e ∈ events, Event.IsReply e) → Swept (source :: sources) initial r
          (.shock source.1 :: events) := by
      intro r events hr hreplies
      refine ⟨[.broken source events], by simp [Shock.events], .broken source events _ hreplies, ?_⟩
      exact fun outcome h => absurd h (hr outcome)
    refine (adds_shock seams _ _ rfl).bind (fun r new hnew => ?_)
      (fun e => e.elim) fun new hnew => ?_
    · obtain ⟨course, rfl, hfits, htold⟩ := hnew
      by_cases hnext : triesNext r = true
      · rw [if_pos hnext]
        refine (ih (judgeShock r)).mono fun out more hout => ?_
        obtain ⟨shocks, rfl, hissued, hok⟩ := hout
        refine ⟨.returned source course :: shocks, by simp [Shock.events, shockRow],
          .advanced source course hfits (htold.triesNext_iff.mp hnext) hissued, ?_⟩
        intro outcome hout hsuccess
        rcases hok outcome hout hsuccess with hr | ⟨last, hlast, hsucceeded⟩
        · exact absurd (htold.success.mp hr) (htold.triesNext_iff.mp hnext).1
        · refine .inr ⟨last, ?_, hsucceeded⟩
          rw [List.getLast?_cons, hlast]
          rfl
      · rw [if_neg hnext]
        refine Adds.pure ⟨[.returned source course], by simp [Shock.events, shockRow],
          .stopped source course _ hfits fun h => hnext (htold.triesNext_iff.mpr h), ?_⟩
        intro outcome hout hsuccess
        cases hout
        exact .inr ⟨_, rfl, htold.success.mp hsuccess⟩
    · obtain ⟨events, rfl, hreplies⟩ := hnew
      exact hbroken .panic events (fun _ => nofun) hreplies

end Shocks

end Defibrillator
