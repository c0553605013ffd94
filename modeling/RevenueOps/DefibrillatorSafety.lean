import RevenueOps.DefibrillatorRuns
import RevenueOps.RouteExecutorSafety
import RevenueOps.UnknownOutcome

/-! The law of the defibrillator: distinct sources, best funded first, at most three, and exactly
when a source gets a shock after an execution whose executor attempted a payment. -/
namespace Defibrillator

open FallibleState JsonValue RustNumber RustText OutputLogic StableSelection
open RouteExecutor (RpcFailure ExecutionResult ExecuteRequest)
open RebalanceEngine RebalanceFacade

variable {ω : Type}

section Channels

def Event.IsReading : Event → Prop
  | .funds _ => True
  | .peerChannels _ => True
  | _ => False

theorem upsertBalance_scids {channels : List (String × ChannelBalance)} {scid : String}
    {balance : ChannelBalance} : (upsertBalance channels scid balance).map Prod.fst =
      if scid ∈ channels.map Prod.fst then channels.map Prod.fst
      else channels.map Prod.fst ++ [scid] := by
  unfold upsertBalance
  split
  · rw [List.map_map]
    refine List.map_congr_left fun c _ => ?_
    by_cases h : c.1 = scid
    · simp [h]
    · simp [h]
  · simp

theorem upsertBalance_nodup {channels : List (String × ChannelBalance)}
    (h : (channels.map Prod.fst).Nodup) (scid : String) (balance : ChannelBalance) :
    ((upsertBalance channels scid balance).map Prod.fst).Nodup := by
  rw [upsertBalance_scids]
  by_cases hmem : scid ∈ channels.map Prod.fst
  · rw [if_pos hmem]
    exact h
  · rw [if_neg hmem]
    exact List.nodup_append_comm.mp (List.nodup_cons.mpr ⟨hmem, h⟩)

theorem balancesOf_nodup (listfunds listpeerchannels : Json) :
    ((balancesOf listfunds listpeerchannels).map Prod.fst).Nodup := by
  refine List.foldlRecOn (motive := fun channels : List (String × ChannelBalance) =>
    (channels.map Prod.fst).Nodup) _ _ List.nodup_nil fun channels h entry _ => ?_
  by_cases hkept : isNormal entry = true ∧ jsonStr entry "short_channel_id" ≠ ""
  · rw [if_pos hkept]
    exact upsertBalance_nodup h _ _
  · rw [if_neg hkept]
    exact h

variable {channels : List (String × ChannelBalance)} {channelId : String}

theorem rankedSources_subset {c : String × ChannelBalance}
    (h : c ∈ rankedSources channels channelId) : c ∈ channels ∧ c.1 ≠ channelId := by
  have hmem := (perm_sortByKey _).mem_iff.mp (List.mem_of_mem_take h)
  obtain ⟨hc, hhealthy⟩ := List.mem_filter.mp hmem
  exact ⟨hc, (of_decide_eq_true hhealthy).1⟩

theorem rankedSources_nodup (h : (channels.map Prod.fst).Nodup) :
    ((rankedSources channels channelId).map Prod.fst).Nodup := by
  refine List.Nodup.sublist ((List.take_sublist _ _).map Prod.fst) ?_
  refine ((perm_sortByKey _).map Prod.fst).nodup_iff.mpr ?_
  exact h.sublist (List.filter_sublist.map Prod.fst)

theorem rankedSources_descending :
    (rankedSources channels channelId).Pairwise fun a b =>
      b.2.spendableSats ≤ a.2.spendableSats := by
  refine List.Pairwise.sublist (List.take_sublist _ _) ?_
  refine List.Pairwise.imp ?_ (pairwise_sortByKey _)
  intro a b h
  exact Int.neg_le_neg_iff.mp h

theorem rankedSources_length : (rankedSources channels channelId).length ≤ 3 := by
  rw [rankedSources, List.length_take]
  exact Nat.min_le_left _ _

/-- The channels of the last reading of the balances; none, where it failed twice. -/
def Listed (prelude : List Event) (channels : List (String × ChannelBalance)) : Prop :=
  channels = [] ∨ ∃ before funds peers after, channels = balancesOf funds peers ∧
    prelude = before ++ [.funds (.ok funds), .peerChannels (.ok peers)] ++ after

theorem Listed.nodup {prelude : List Event} (h : Listed prelude channels) :
    (channels.map Prod.fst).Nodup := by
  rcases h with rfl | ⟨_, funds, peers, _, rfl, -⟩
  · exact List.nodup_nil
  · exact balancesOf_nodup funds peers

theorem Listed.append {prelude : List Event} (h : Listed prelude channels) (more : List Event) :
    Listed (prelude ++ more) channels := by
  rcases h with rfl | ⟨before, funds, peers, after, rfl, rfl⟩
  · exact .inl rfl
  · exact .inr ⟨before, funds, peers, after ++ more, rfl, by simp⟩

variable (facade : FacadeDeps ω)

theorem adds_getFunds : Adds trail Event.IsReading (ask facade.witnessed.getFunds)
    (Returning fun reply new => new = [.funds reply]) :=
  @adds_seen _ _ Event.IsReading facade.getFunds (fun reply => [.funds reply])
    (by simp [Event.IsReading])

theorem adds_getPeerChannels : Adds trail Event.IsReading (ask facade.witnessed.getPeerChannels)
    (Returning fun reply new => new = [.peerChannels reply]) :=
  @adds_seen _ _ Event.IsReading facade.getPeerChannels (fun reply => [.peerChannels reply])
    (by simp [Event.IsReading])

theorem adds_tryChannelsWithBalances :
    Adds trail Event.IsReading (tryChannelsWithBalances facade.witnessed)
      (Returning fun out new => ∀ channels, out = some channels → ∃ funds peers,
        channels = balancesOf funds peers ∧
          new = [.funds (.ok funds), .peerChannels (.ok peers)]) := by
  refine (adds_getFunds facade).bindReturning fun funds new hnew => ?_
  subst hnew
  cases funds with
  | error e => exact Adds.pure nofun
  | ok funds =>
    refine (adds_getPeerChannels facade).bindReturning fun peers new hnew => ?_
    subst hnew
    cases peers with
    | error e => exact Adds.pure nofun
    | ok peers =>
      refine Adds.pure fun channels h => ?_
      cases h
      exact ⟨funds, peers, rfl, rfl⟩

theorem adds_channelsWithBalances :
    Adds trail Event.IsReading (channelsWithBalances facade.witnessed)
      (Returning fun channels new => Listed new channels) := by
  refine (adds_tryChannelsWithBalances facade).bindReturning fun channels new hnew => ?_
  cases channels with
  | some channels =>
    obtain ⟨funds, peers, rfl, rfl⟩ := hnew channels rfl
    exact Adds.pure (.inr ⟨[], funds, peers, [], rfl, rfl⟩)
  | none =>
    refine (adds_tryChannelsWithBalances facade).bindReturning fun channels more hmore => ?_
    cases channels with
    | none => exact Adds.pure (.inl rfl)
    | some channels =>
      obtain ⟨funds, peers, rfl, rfl⟩ := hmore channels rfl
      exact Adds.pure (.inr ⟨new, funds, peers, [], rfl, by simp⟩)

theorem adds_checkCapitalControls (seams : ShockSeams ω) (config : DiagnosticConfig) :
    Adds trail Event.IsReading (checkCapitalControls (witnessed seams) facade.witnessed config)
      (Returning fun _ _ => True) := by
  have hreserve : Adds trail Event.IsReading (reserveHeld facade.witnessed config)
      (Returning fun _ _ => True) := by
    refine (adds_getFunds facade).bindReturning fun funds new hnew => ?_
    cases funds with
    | error e => exact Adds.pure trivial
    | ok funds => exact Adds.after_checked fun reserve _ => Adds.pure trivial
  refine hreserve.bindReturning fun reserved new _ => ?_
  refine Adds.ite (fun _ => Adds.pure trivial) fun _ => ?_
  refine Adds.afterQuiet quiet_unseen fun now => Adds.after_checked fun window _ => ?_
  refine Adds.after_checked fun since _ => Adds.afterQuiet quiet_unseen fun spent => ?_
  refine Adds.ite (fun _ => Adds.pure trivial) fun _ => ?_
  refine Adds.after_checked fun weekAgo _ => ?_
  exact Adds.afterQuiet quiet_unseen fun weekly => Adds.pure trivial

end Channels

section Safety

variable (channels : List (String × ChannelBalance)) (channelId : String)

structure Lawful (shocks : List Shock) (r : Outcome Empty ShockResult) : Prop where
  unattempted : ∀ before a b after, shocks = before ++ a :: b :: after → ¬ a.Sent
  atMostThree : shocks.length ≤ 3
  known : ∀ shock ∈ shocks, shock.source ∈ channels
  distinct : (shocks.map fun shock => shock.source.1).Nodup
  elsewhere : ∀ shock ∈ shocks, shock.source.1 ≠ channelId
  descending : shocks.Pairwise fun a b => b.source.2.spendableSats ≤ a.source.2.spendableSats
  honest : ∀ result, r = .ok result → result.shockStatus = "completed" →
    ∃ last, shocks.getLast? = some last ∧ last.Succeeded

/-- Only the last ranked source follows nothing, whatever its execution met. -/
def Stops (shocks : List Shock) : Prop :=
  ∀ before source course after, shocks = before ++ .returned source course :: after →
    before.length + 1 < (rankedSources channels channelId).length → course.Sent → ¬ course.Advances

structure Defibrillated (prelude : List Event) (shocks : List Shock)
    (r : Outcome Empty ShockResult) : Prop where
  reading : ∀ e ∈ prelude, Event.IsReading e
  listed : Listed prelude channels
  issued : shocks = [] ∨ Issued (rankedSources channels channelId) shocks
  honest : ∀ result, r = .ok result → result.shockStatus = "completed" →
    ∃ last, shocks.getLast? = some last ∧ last.Succeeded

variable {channels} {channelId}

theorem Shock.sent_returned {source : String × ChannelBalance} {course : Course} :
    (Shock.returned source course).Sent ↔ course.Sent := by
  simp [Shock.Sent, Shock.events, Course.Sent]

variable {prelude : List Event} {shocks : List Shock} {r : Outcome Empty ShockResult}

theorem Defibrillated.sources_prefix
    (h : Defibrillated channels channelId prelude shocks r) :
    shocks.map Shock.source <+: rankedSources channels channelId := by
  rcases h.issued with rfl | hissued
  · exact List.nil_prefix
  · exact hissued.sources_prefix

theorem Defibrillated.mem_ranked (h : Defibrillated channels channelId prelude shocks r)
    {shock : Shock} (hmem : shock ∈ shocks) : shock.source ∈ rankedSources channels channelId :=
  h.sources_prefix.subset (List.mem_map_of_mem hmem)

/-- A source is tried after an attempted payment exactly where the replies name no route. -/
theorem Defibrillated.unattempted_iff (h : Defibrillated channels channelId prelude shocks r) :
    (∀ before a b after, shocks = before ++ a :: b :: after → ¬ a.Sent) ↔
      Stops channels channelId shocks := by
  rcases h.issued with rfl | hissued
  · constructor
    · intro _ before source course after hsplit
      simp at hsplit
    · intro _ before a b after hsplit
      simp at hsplit
  constructor
  · intro hlaw before source course after hsplit hmore hsent hadvances
    have hnext := hissued.follows hsplit hadvances hmore
    obtain ⟨next, rest, rfl⟩ := List.exists_cons_of_ne_nil hnext
    exact hlaw before _ next rest hsplit (Shock.sent_returned.mpr hsent)
  · intro hstops before a b after hsplit hsent
    obtain ⟨source, course, rfl, hadvances⟩ := hissued.followed hsplit
    have hlength := h.sources_prefix.length_le
    rw [List.length_map, hsplit] at hlength
    refine hstops before source course (b :: after) hsplit ?_
      (Shock.sent_returned.mp hsent) hadvances
    simp at hlength
    omega

theorem Defibrillated.lawful_iff (h : Defibrillated channels channelId prelude shocks r) :
    Lawful channels channelId shocks r ↔ Stops channels channelId shocks := by
  rw [← h.unattempted_iff]
  refine ⟨Lawful.unattempted, fun hlaw => ?_⟩
  have hsources := h.sources_prefix
  constructor
  · exact hlaw
  · have hlength := hsources.length_le
    rw [List.length_map] at hlength
    exact hlength.trans rankedSources_length
  · exact fun shock hmem => (rankedSources_subset (h.mem_ranked hmem)).1
  · have hnodup := (rankedSources_nodup h.listed.nodup).sublist (hsources.sublist.map Prod.fst)
    rwa [List.map_map] at hnodup
  · exact fun shock hmem => (rankedSources_subset (h.mem_ranked hmem)).2
  · exact List.pairwise_map.mp (rankedSources_descending.sublist hsources.sublist)
  · exact h.honest

variable (seams : ShockSeams ω) (facade : FacadeDeps ω)

def Leaves (channelId : String) (r : Outcome Empty ShockResult) (new : List Event) : Prop :=
  ∃ prelude channels shocks, new = prelude ++ shocks.flatMap Shock.events ∧
    Defibrillated channels channelId prelude shocks r

theorem shockStatus_completed {outcome : ShockOutcome} (h : shockStatus outcome = "completed") :
    outcome.shockOk = true := by
  unfold shockStatus at h
  by_contra hok
  rw [if_neg hok] at h
  by_cases hpending : outcome.shockPending = true
  · simp [hpending] at h
  · by_cases hblocked : outcome.shockBudgetBlocked = true
    · simp [hpending, hblocked] at h
    · simp [hpending, hblocked] at h

/-- A step that only reads; a panic on its way leaves no shock. -/
theorem adds_afterReading {α : Type} {m : Engine (Witnessed ω) α}
    {k : α → Engine (Witnessed ω) ShockResult} {S : α → List Event → Prop} {before : List Event}
    (hm : Adds trail Event.IsReading m (Returning S)) (hbefore : ∀ e ∈ before, Event.IsReading e)
    (hk : ∀ a new, (∀ e ∈ new, Event.IsReading e) → S a new → Adds trail (fun _ => True) (k a)
      fun r more => Leaves channelId r (before ++ (new ++ more))) :
    Adds trail (fun _ => True) (m >>= k) fun r more => Leaves channelId r (before ++ more) := by
  have hread : Adds trail (fun _ => True) m fun r new =>
      (∀ e ∈ new, Event.IsReading e) ∧ Returning S r new :=
    hm.widen (fun _ _ => trivial) fun r new hnew hr => ⟨hnew, hr⟩
  refine hread.bind (fun a new ha => hk a new ha.1 ha.2) (fun e => e.elim) fun new hnew => ?_
  refine ⟨before ++ new, [], [], by simp, ?_, .inl rfl, .inl rfl, nofun⟩
  exact List.forall_mem_append.mpr ⟨hbefore, hnew.1⟩

theorem adds_diagnosticRebalance [UnicodeCase] (config : DiagnosticConfig) :
    Adds trail (fun _ => True) (diagnosticRebalance (witnessed seams) facade.witnessed config
      channelId) (Leaves channelId) := by
  have hprobe : Quiet trail Event.IsReading (Eff.modify fun s =>
      { s with world := facade.witnessed.setChannelProbe channelId "bounded_low_fee" s.world } :
      Engine (Witnessed ω) Unit) := Quiet.modify fun _ => rfl
  refine adds_afterReading (hprobe.adds fun _ => rfl) (List.forall_mem_nil _) fun _ new _ hnew => ?_
  subst hnew
  refine adds_afterReading (adds_channelsWithBalances facade) (List.forall_mem_nil _)
    fun channels new hnew hlisted => ?_
  have hidle : ∀ result more, (∀ e ∈ more, Event.IsReading e) →
      result.shockStatus ≠ "completed" → Leaves channelId (.ok result) (new ++ more) := by
    intro result more hmore hstatus
    refine ⟨new ++ more, channels, [], by simp, List.forall_mem_append.mpr ⟨hnew, hmore⟩,
      hlisted.append more, .inl rfl, fun _ h hdone => ?_⟩
    cases h
    exact absurd hdone hstatus
  cases hdest : channels.find? fun c => c.1 = channelId with
  | none =>
    refine Adds.pure (hidle _ [] (List.forall_mem_nil _) ?_)
    decide
  | some dest =>
    refine Adds.ite (fun _ => Adds.pure (hidle _ [] (List.forall_mem_nil _) ?_)) fun _ => ?_
    · decide
    refine adds_afterReading (quiet_unseen.adds fun _ => rfl) hnew fun fee more _ hmore => ?_
    subst hmore
    refine adds_afterReading ((Quiet.checked fee).adds fun _ => rfl) hnew fun _ more _ hmore => ?_
    subst hmore
    refine adds_afterReading (adds_checkCapitalControls facade seams config) hnew
      fun allowed more hmore _ => ?_
    refine Adds.ite (fun _ => Adds.pure ?_) fun _ => ?_
    · rw [List.append_nil]
      exact hidle _ more hmore (by decide)
    refine (adds_shockSources seams channelId _ _ _ _ _).bind (fun outcome shots hshots => ?_)
      (fun e => e.elim) fun shots hshots => ?_
    · obtain ⟨shocks, rfl, hissued, hok⟩ := hshots
      refine Adds.pure ⟨new ++ more, channels, shocks, by simp,
        List.forall_mem_append.mpr ⟨hnew, hmore⟩, hlisted.append more, .inr hissued, ?_⟩
      intro result h hdone
      cases h
      rcases hok outcome rfl (shockStatus_completed hdone) with hinitial | hlast
      · cases hinitial
      · exact hlast
    · obtain ⟨shocks, rfl, hissued, -⟩ := hshots
      exact ⟨new ++ more, channels, shocks, by simp, List.forall_mem_append.mpr ⟨hnew, hmore⟩,
        hlisted.append more, .inr hissued, nofun⟩

/-- Which shocks a call makes, and exactly when they keep the law. -/
theorem diagnosticRebalance_lawful_iff [UnicodeCase] (config : DiagnosticConfig)
    (channelId : String) (s : EngineState (Witnessed ω)) :
    ∃ prelude channels shocks,
      trail (diagnosticRebalance (witnessed seams) facade.witnessed config channelId s).2 =
        trail s ++ (prelude ++ shocks.flatMap Shock.events) ∧
      Defibrillated channels channelId prelude shocks
        (diagnosticRebalance (witnessed seams) facade.witnessed config channelId s).1 ∧
      (Lawful channels channelId shocks
          (diagnosticRebalance (witnessed seams) facade.witnessed config channelId s).1 ↔
        Stops channels channelId shocks) := by
  obtain ⟨new, htrail, -, prelude, channels, shocks, rfl, hleft⟩ :=
    (adds_diagnosticRebalance seams facade config).run s
  exact ⟨prelude, channels, shocks, htrail, hleft, hleft.lawful_iff⟩

end Safety

section LiquidityFailure

/-- The node sends the payment, and an intermediate channel lacks the liquidity. -/
def liquidityRpc : RouteExecutor.PaymentRpc Unit :=
  { invoice := fun _ _ _ _ => (.ok (.obj [("bolt11", .str "lnbc1"), ("payment_hash", .str "ab"),
      ("payment_secret", .str "cd")]), ())
    sendpay := fun _ _ _ _ _ => (.ok (.obj [("status", .str "pending")]), ())
    waitsendpay := fun _ _ _ => (.error ⟨"WIRE_TEMPORARY_CHANNEL_FAILURE"⟩, ())
    delpay := fun _ _ _ => (.ok (), ())
    delinvoice := fun _ _ _ => (.ok (), ()) }

def liquidityRun (req : ExecuteRequest) :
    Outcome Empty ExecutionResult × RouteExecutor.ExecState Unit :=
  @RouteExecutor.execute Unit asciiCase UnknownOutcome.plainText liquidityRpc .live req (.start ())

def threeHops : RouteResult :=
  { success := true
    error := none
    routeCostSats := 1
    route := [⟨"02aa", "1x1x1", 0, 58, 50001000⟩, ⟨"02bb", "5x5x5", 1, 40, 50000500⟩,
      ⟨"03ff", "3x3x3", 1, 18, 50000000⟩]
    probabilityPpm := 0 }

/-- The router knows one way from the first source, and none around its middle channel. -/
def oneWay : ShockSeams Unit :=
  { config := ⟨0, 0.0, 100000, none, 24, false, [], 18⟩
    policy := some fun _ _ => (.ok ⟨"dynamic", "enabled"⟩, ())
    now := fun _ => (1700000000.0, ())
    tryLock := fun _ => (true, ())
    getinfoId := fun _ => (.ok "03ff", ())
    beginCycle := fun _ => (true, ())
    pricePair := fun ctx exclude _ =>
      (if ctx.sourceChannelId = "1x1x1" ∧ ctx.amountSats = 50000 ∧ exclude = [] then .ok threeHops
        else .ok ⟨false, some "no path", 0, [], 0⟩, ())
    execute := fun req _ => match (liquidityRun req).1 with
      | .ok result => (result, ())
      | _ => (failedResult "executor_panicked" 0, ())
    insertOrAdoptHistory := fun _ _ => (1, ())
    reserveBudget := fun _ _ => (none, ())
    pendingSettlementRows := fun _ => ([], ())
    listsendpays := fun _ _ => (.ok (.obj []), ())
    listpeerchannelsFull := fun _ => (.ok (.obj []), ())
    hasObservations := fun _ _ => (false, ())
    perform := fun _ _ => ()
    sendpayAttempted := fun req _ => (liquidityRun req).2.calls.any RouteExecutorSafety.isSendpay }

def openChannel (scid peerId : String) (amountMsat : ℤ) : Json :=
  .obj [("state", .str "CHANNELD_NORMAL"), ("short_channel_id", .str scid),
    ("peer_id", .str peerId), ("our_amount_msat", .int amountMsat)]

def threeChannels : FacadeDeps Unit :=
  { getFunds := fun _ => (.ok (.obj [("channels", .arr [openChannel "1x1x1" "02aa" 400000000,
      openChannel "2x2x2" "02cc" 300000000, openChannel "3x3x3" "02bb" 0])]), ())
    getPeerChannels := fun _ => (.ok (.obj []), ())
    getTotalRebalanceFees := fun _ _ => (0, ())
    setChannelProbe := fun _ _ _ => ()
    estimateInboundFee := fun _ _ => (some 0, ()) }

def shockConfig : DiagnosticConfig := ⟨⟨5000, 35000, 24⟩, 0, 50⟩

def oneWayTrail : List Event :=
  trail (@diagnosticRebalance _ asciiCase (witnessed oneWay) threeChannels.witnessed shockConfig
    "3x3x3" (.start ⟨(), []⟩ "" 0 [])).2

def Event.shockOf : Event → Option String
  | .shock source => some source
  | _ => none

def Event.isSent : Event → Bool
  | .attempt _ sent => sent
  | _ => false

/-- The second source gets its shock after a payment from the first one went out. -/
theorem sent_then_next_source : ∃ i j k : ℕ, i < j ∧ j < k ∧
    oneWayTrail[i]?.bind Event.shockOf = some "1x1x1" ∧
    oneWayTrail[j]?.any Event.isSent = true ∧
    oneWayTrail[k]?.bind Event.shockOf = some "2x2x2" := by
  refine ⟨3, 5, 11, by decide, by decide, ?_⟩
  decide +kernel

end LiquidityFailure

end Defibrillator
