import RevenueOps.FeeStore
import RevenueOps.StateMachine

/-! Failed forwards over whole runs of the owner: messages of every kind, other
clients of the store,
failing calls and restarts. A nudge enters memory with its commit or not at all, an event key is
committed once, and the nudges of one channel keep their distance. -/
namespace FailureNudges

open FallibleState SqlTransaction FeeRunway FeeOwner FeeStore KeyedTable CycleOwner StateMachine

variable {κ φ ι τ : Type}

section World

def madeCommit (r : StoreReplies) (es : List (OwnerEffect ι τ)) :
    Option (FeeCycleCommit × Except String ℕ) :=
  es.findSome? fun
    | .commitFeeCycle commit => some (commit, r.commitFeeCycle commit)
    | _ => none

/-- One handled signal: the owner before and after it, and the commit it made. -/
structure SignalRecord (κ φ ι τ : Type) where
  signal : FailedForwardSignal
  before : CycleOwner κ φ ι τ
  after : CycleOwner κ φ ι τ
  commit : Option (FeeCycleCommit × Except String ℕ)

/-- The event key of a signal whose commit returned Ok. -/
def SignalRecord.committedKey (rec : SignalRecord κ φ ι τ) : Option String :=
  match rec.commit with
  | some (commit, .ok _) => some commit.cycleId
  | _ => none

structure World (κ φ ι τ : Type) where
  owner : CycleOwner κ φ ι τ
  store : Store
  signals : List (SignalRecord κ φ ι τ)
  nudges : List (String × ℤ)

def World.start (lifecycle : StateLifecycle) (hasStore hasResultSink : Bool) : World κ φ ι τ :=
  ⟨.new lifecycle hasStore hasResultSink, .virgin, [], []⟩

inductive Event (κ φ ι τ : Type) where
  | deliver (msg : CycleMsg ι τ) (pass : Pass κ φ ι) (turn : StoreTurn)
  | client (call : RunwayCall) (faults : List (Option Fault))
  | restart (lifecycle : StateLifecycle) (hasStore hasResultSink : Bool)

def World.record (K : FeeKernel κ φ) (w : World κ φ ι τ) (pass : Pass κ φ ι) (turn : StoreTurn)
    (signal : FailedForwardSignal) : SignalRecord κ φ ι τ :=
  let handled := w.owner.handle K pass (turn.replies w.store) (.failedForward signal)
  ⟨signal, w.owner, handled.1, madeCommit (turn.replies w.store) handled.2⟩

def World.handled (K : FeeKernel κ φ) (w : World κ φ ι τ) (msg : CycleMsg ι τ) (pass : Pass κ φ ι)
    (turn : StoreTurn) : World κ φ ι τ :=
  let handled := w.owner.handle K pass (turn.replies w.store) msg
  { w with owner := handled.1, store := turn.after w.store handled.2 }

/-- The nudges of a process are those whose commit returned Ok to it. -/
def World.noted (K : FeeKernel κ φ) (w : World κ φ ι τ) (pass : Pass κ φ ι) (turn : StoreTurn)
    (signal : FailedForwardSignal) : World κ φ ι τ :=
  let rec_ := w.record K pass turn signal
  { w.handled K (.failedForward signal) pass turn with
    signals := w.signals ++ [rec_]
    nudges := w.nudges ++ rec_.committedKey.toList.map fun _ => (signal.channelId, signal.eventTs) }

def next (K : FeeKernel κ φ) (w : World κ φ ι τ) : Event κ φ ι τ → World κ φ ι τ
  | .deliver (.failedForward signal) pass turn => w.noted K pass turn signal
  | .deliver msg pass turn => w.handled K msg pass turn
  | .client call faults => { w with store := w.store.exec call faults }
  | .restart lifecycle hasStore hasResultSink =>
    { w with owner := .new lifecycle hasStore hasResultSink, nudges := [] }

def machine (K : FeeKernel κ φ) : Machine (World κ φ ι τ) (Event κ φ ι τ) where
  Enabled _ _ := True
  next := next K

/-- A signal does not come within the first window after the epoch to a channel whose recorded
nudge is at time 0, which the owner reads as no nudge. -/
def Timed (w : World κ φ ι τ) : Event κ φ ι τ → Prop
  | .deliver (.failedForward signal) _ _ =>
    w.owner.lastFailureNudgeTs.get? signal.channelId = some 0 →
      failureNudgeMinIntervalSeconds ≤ signal.eventTs
  | _ => True

end World

section Keys

variable {s : Store}

theorem keys_exec {c : RunwayCall} {faults : List (Option Fault)} :
    s.keys <+: (s.exec c faults).keys := by
  unfold Store.keys Store.commits Store.exec
  rw [commitsOf_append, List.map_append]
  exact List.prefix_append _ _

theorem keys_execAll (cs : List (RunwayCall × List (Option Fault))) :
    s.keys <+: (s.execAll cs).keys := by
  induction cs generalizing s with
  | nil => exact List.prefix_refl _
  | cons c cs ih => exact keys_exec.trans ih

theorem keys_after (turn : StoreTurn) (es : List (OwnerEffect ι τ)) :
    s.keys <+: (turn.after s es).keys := by
  refine (keys_execAll turn.between).trans ?_
  unfold StoreTurn.after
  generalize s.execAll turn.between = t
  induction es generalizing t with
  | nil => exact List.prefix_refl _
  | cons e es ih =>
    refine List.IsPrefix.trans ?_ (ih _)
    cases e <;> first | exact keys_exec | exact List.prefix_refl _

end Keys

section Frame

variable {K : FeeKernel κ φ} {p : Pass κ φ ι} {r : StoreReplies} {o : CycleOwner κ φ ι τ}
  {h : Handled κ φ ι τ}

theorem noted_nudges (hn : Noted o h) : h.1.lastFailureNudgeTs = o.lastFailureNudgeTs := by
  obtain ⟨q, failures, howner, -⟩ := hn
  rw [howner]
  rfl

theorem handleTrigger_nudges {trigger : TriggerQueue.FeeTrigger} {now : ℤ} {woken : StateWrites κ φ}
    {detail : String} :
    (o.handleTrigger trigger now woken detail).1.lastFailureNudgeTs = o.lastFailureNudgeTs := by
  obtain ⟨q, writes, howner, -⟩ := handleTrigger_spec o trigger now woken detail
  rw [howner]

theorem settleCommit_nudges {channelId : String} {basis : ℕ} {staged : Option (φ × κ)}
    {result : Except String GuardedCommitOutcome} :
    (o.settleCommit channelId basis staged result).lastFailureNudgeTs = o.lastFailureNudgeTs := by
  unfold settleCommit
  rcases result with e | outcome
  · rfl
  cases outcome with
  | generationConflict expected found => rfl
  | committed generation =>
    dsimp only
    split
    · cases staged <;> rfl
    · rfl

theorem applyStoreResult_nudges {result : InitialFeeStoreResult} :
    (o.applyStoreResult K p r result).1.lastFailureNudgeTs = o.lastFailureNudgeTs := by
  unfold applyStoreResult
  split
  · rfl
  · rfl
  · rename_i channelId eventKey generation result
    have hstep := @handleIdempotencyResult_step κ φ ι τ K p r o channelId eventKey
      generation result
    generalize o.handleIdempotencyResult K p r channelId eventKey generation result = h at hstep
    cases hstep with
    | conflict => rfl
    | settled prepared hawaited hn => exact (noted_nudges hn).trans rfl
    | dispatched => rfl
    | unlaunched => simp only [failedPersistence, unparked, CycleOwner.awaiting]
  · rename_i channelId eventKey generation result
    obtain ⟨heq, -⟩ | ⟨basis, staged, -, heq⟩ := handleCommitResult_cases o channelId
      eventKey generation result
    · rw [heq]
      rfl
    · rw [heq, settleCommit_nudges]
      rfl
  · rename_i result
    cases result <;> rfl

theorem newChannel_nudges {prepared : PreparedInitialFee ι} (hs : NewChannelStep o prepared h) :
    h.1.lastFailureNudgeTs = o.lastFailureNudgeTs := by
  cases hs with
  | kept hn => exact noted_nudges hn
  | dispatched => rfl
  | unlaunched hready hfree hn => exact (noted_nudges hn).trans rfl

theorem answerDeferred_nudges {outcome : CycleOutcome} :
    (answerDeferred outcome h).1.lastFailureNudgeTs = h.1.lastFailureNudgeTs := by
  unfold answerDeferred
  split <;> rfl

theorem runOrDeferCycle_nudges {prepared : PreparedCycle ι} :
    (o.runOrDeferCycle K p r prepared).2.1.lastFailureNudgeTs = o.lastFailureNudgeTs := by
  unfold runOrDeferCycle
  split
  · exact (runCycle_slots _ _).nudges
  · unfold deferCycle
    dsimp only
    split <;> rfl

theorem handle_nudges {m : CycleMsg ι τ} (hm : ∀ signal, m ≠ .failedForward signal) :
    (o.handle K p r m).1.lastFailureNudgeTs = o.lastFailureNudgeTs := by
  cases m with
  | failedForward signal => exact absurd rfl (hm signal)
  | runPrepared prepared completion =>
    cases completion with
    | none => exact runOrDeferCycle_nudges
    | some c =>
      unfold CycleOwner.handle runOrDeferCycleWithAck
      have htaken : (if o.pendingInitialFees.isEmpty then o
          else { o with deferredCycleAck := none }).lastFailureNudgeTs = o.lastFailureNudgeTs := by
        split <;> rfl
      dsimp only
      split
      · exact runOrDeferCycle_nudges.trans htaken
      · exact runOrDeferCycle_nudges.trans htaken
  | newChannel prepared => exact newChannel_nudges (handleNewChannel_step _)
  | newChannelRefused peerId channelHint eventTs reason =>
      exact noted_nudges handleNewChannelRefused_noted
  | initialFeeStoreResult result =>
    unfold CycleOwner.handle handleInitialFeeStoreResult resumeDeferredCycle
    dsimp only
    split
    · split
      · exact applyStoreResult_nudges
      · rw [answerDeferred_nudges]
        exact (runCycle_slots _ _).nudges.trans applyStoreResult_nudges
    · exact applyStoreResult_nudges
  | policyChanged peerId channelStatesRead =>
    cases channelStatesRead with
    | true => exact handleTrigger_nudges
    | false => rfl
  | vegasSpikeCheck => exact handleTrigger_nudges
  | wakeAll => exact handleTrigger_nudges
  | forwardEvent channelId => exact handleTrigger_nudges

end Frame

section Signals

variable {K : FeeKernel κ φ} {w : World κ φ ι τ} {pass : Pass κ φ ι} {turn : StoreTurn}
  {signal : FailedForwardSignal} {r : StoreReplies} {es : List (OwnerEffect ι τ)}

/-- The two fates of a signal: it left the channel states and the nudge times alone, or its own
commit returned Ok and the nudged state of a channel that had one took the place of that state. -/
inductive Fate (K : FeeKernel κ φ) (rec : SignalRecord κ φ ι τ) : Prop where
  | kept (hstate : rec.after.state = rec.before.state)
      (hnudges : rec.after.lastFailureNudgeTs = rec.before.lastFailureNudgeTs)
      (hkey : rec.committedKey = none)
  | applied (commit : FeeCycleCommit) (generation : ℕ) (cycleState : κ) (before after : φ)
      (hcommit : rec.commit = some (commit, .ok generation))
      (hkey : commit.cycleId = K.failedForwardEventKey rec.signal)
      (hrows : commit.stateRows = [⟨rec.signal.channelId, K.serializeStateEnvelope cycleState after,
        K.lastUpdate cycleState⟩])
      (hcycle : rec.before.state.cycleStates.get? rec.signal.channelId = some cycleState)
      (hfee : rec.before.state.feeStates.get? rec.signal.channelId = some before)
      (hstate : rec.after.state = ⟨rec.before.state.cycleStates,
        rec.before.state.feeStates.insert rec.signal.channelId after⟩)
      (hnudges : rec.after.lastFailureNudgeTs =
        rec.before.lastFailureNudgeTs.insert rec.signal.channelId rec.signal.eventTs)
      (hwindow : insideWindow (rec.before.lastFailureNudgeTs.get? rec.signal.channelId)
        rec.signal.eventTs failureNudgeMinIntervalSeconds = false)

theorem madeCommit_audit (hes : Audit es) : madeCommit r es = none := by
  unfold madeCommit
  apply List.findSome?_eq_none_iff.mpr
  intro e he
  have haudit := hes e he
  cases e <;> first | rfl | cases haudit

theorem record_eq : w.record K pass turn signal =
    ⟨signal, w.owner, (handleFailedForward K (turn.replies w.store) w.owner signal).1,
      madeCommit (turn.replies w.store)
        (handleFailedForward K (turn.replies w.store) w.owner signal).2⟩ :=
  rfl

theorem record_fate (w : World κ φ ι τ) (pass : Pass κ φ ι) (turn : StoreTurn)
    (signal : FailedForwardSignal) : Fate K (w.record K pass turn signal) := by
  have hstep := handleFailedForward_step (K := K) (r := turn.replies w.store) (o := w.owner) signal
  rw [record_eq]
  generalize handleFailedForward K (turn.replies w.store) w.owner signal = h at hstep
  cases hstep with
  | kept hn =>
    obtain ⟨q, failures, howner, haudit⟩ := hn
    refine .kept ?_ ?_ ?_
    · dsimp only
      rw [howner]
      rfl
    · dsimp only
      rw [howner]
      rfl
    · unfold SignalRecord.committedKey
      rw [madeCommit_audit haudit]
  | failed q n commit e es hreply hes =>
    refine .kept rfl rfl ?_
    unfold SignalRecord.committedKey madeCommit
    rw [List.findSome?_cons]
    dsimp only
    rw [hreply]
  | applied q coalesced implied feeState cycleState generation hready hstore hstage hcycle hreply =>
    obtain ⟨hwindow, before, hbefore, -⟩ := stageFailureNudge_applied hstage
    refine .applied (nudgeCommit K signal coalesced implied cycleState feeState)
      generation cycleState
      before feeState ?_ rfl rfl hcycle hbefore rfl rfl hwindow
    unfold madeCommit
    rw [List.findSome?_cons]
    dsimp only
    rw [hreply]

theorem noted_keys (w : World κ φ ι τ) (pass : Pass κ φ ι) (turn : StoreTurn)
    (signal : FailedForwardSignal) : ∃ keys, w.store.keys <+: keys ∧
    (w.noted K pass turn signal).store.keys =
      keys ++ (w.record K pass turn signal).committedKey.toList := by
  have hstep := handleFailedForward_step (K := K) (r := turn.replies w.store) (o := w.owner) signal
  have hstore : (w.noted K pass turn signal).store = turn.after w.store
      (handleFailedForward K (turn.replies w.store) w.owner signal).2 := rfl
  rw [hstore]
  rw [record_eq]
  generalize handleFailedForward K (turn.replies w.store) w.owner signal = h at hstep
  cases hstep with
  | kept hn =>
    obtain ⟨q, failures, -, haudit⟩ := hn
    refine ⟨_, keys_after turn h.2, ?_⟩
    unfold SignalRecord.committedKey
    rw [madeCommit_audit haudit]
    exact (List.append_nil _).symm
  | failed q n commit e es hreply hes =>
    refine ⟨_, keys_after turn (.commitFeeCycle commit :: es), ?_⟩
    unfold SignalRecord.committedKey madeCommit
    rw [List.findSome?_cons]
    dsimp only
    rw [hreply]
    exact (List.append_nil _).symm
  | applied q coalesced implied feeState cycleState generation hready hstore hstage hcycle hreply =>
    refine ⟨_, keys_execAll turn.between, ?_⟩
    unfold SignalRecord.committedKey madeCommit
    rw [List.findSome?_cons]
    dsimp only
    rw [hreply]
    obtain ⟨-, hcommits⟩ | ⟨herror, -⟩ := Store.commit_step (w.store.execAll turn.between)
      turn.errorText turn.faults (nudgeCommit K signal coalesced implied cycleState feeState)
    · exact (congrArg (List.map FeeCycleCommit.cycleId) hcommits).trans List.map_append
    · cases herror.symm.trans hreply

end Signals

section Runs

variable {K : FeeKernel κ φ} {w : World κ φ ι τ}

def Spaced (nudges : List (String × ℤ)) : Prop :=
  nudges.Pairwise fun a b => a.1 = b.1 → a.2 + failureNudgeMinIntervalSeconds ≤ b.2

/-- No nudge of the process is later than the recorded one, or closer to it than the window. -/
def Covered (recorded : Dict String ℤ) (nudges : List (String × ℤ)) : Prop :=
  ∀ channelId ts, (channelId, ts) ∈ nudges → ∃ last, recorded.get? channelId = some last ∧
    (ts = last ∨ ts + failureNudgeMinIntervalSeconds ≤ last)

structure Sound (K : FeeKernel κ φ) (w : World κ φ ι τ) : Prop where
  fates : ∀ rec ∈ w.signals, Fate K rec
  keys : (w.signals.filterMap SignalRecord.committedKey).Sublist w.store.keys
  spaced : Spaced w.nudges
  covered : Covered w.owner.lastFailureNudgeTs w.nudges

theorem sound_start {lifecycle : StateLifecycle} {hasStore hasResultSink : Bool} :
    Sound K (World.start lifecycle hasStore hasResultSink : World κ φ ι τ) where
  fates rec h := by cases h
  keys := List.nil_sublist _
  spaced := List.Pairwise.nil
  covered channelId ts h := by cases h

theorem sound_handled (hw : Sound K w) {msg : CycleMsg ι τ}
    (hm : ∀ signal, msg ≠ .failedForward signal)
    {pass : Pass κ φ ι} {turn : StoreTurn} : Sound K (w.handled K msg pass turn) where
  fates := hw.fates
  keys := hw.keys.trans (keys_after _ _).sublist
  spaced := hw.spaced
  covered := by
    have hnudges :
        (w.handled K msg pass turn).owner.lastFailureNudgeTs = w.owner.lastFailureNudgeTs :=
      handle_nudges hm
    rw [hnudges]
    exact hw.covered

theorem spaced_of_window {last ts : ℤ} (hzero : last = 0 → failureNudgeMinIntervalSeconds ≤ ts)
    (hwindow : insideWindow (some last) ts failureNudgeMinIntervalSeconds = false) :
    last + failureNudgeMinIntervalSeconds ≤ ts := by
  unfold insideWindow at hwindow
  by_cases hlast : last = 0
  · have hts := hzero hlast
    omega
  · have hage : ¬ ts - last < failureNudgeMinIntervalSeconds := by simpa [hlast] using hwindow
    omega

theorem sound_noted (hw : Sound K w) {pass : Pass κ φ ι} {turn : StoreTurn}
    {signal : FailedForwardSignal}
    (htimed : w.owner.lastFailureNudgeTs.get? signal.channelId = some 0 →
      failureNudgeMinIntervalSeconds ≤ signal.eventTs) : Sound K (w.noted K pass turn signal) := by
  have hfate := record_fate (K := K) w pass turn signal
  obtain ⟨keys, hprefix, hkeys⟩ := noted_keys (K := K) w pass turn signal
  have hsignals : (w.noted K pass turn signal).signals = w.signals ++
      [w.record K pass turn signal] := rfl
  have hnudges : (w.noted K pass turn signal).nudges = w.nudges ++
      (w.record K pass turn signal).committedKey.toList.map fun _ =>
        (signal.channelId, signal.eventTs) := rfl
  have howner : (w.noted K pass turn signal).owner = (w.record K pass turn signal).after := rfl
  have hbefore : (w.record K pass turn signal).before = w.owner := rfl
  have hsignal : (w.record K pass turn signal).signal = signal := rfl
  generalize w.record K pass turn signal = rec at *
  have hfates : ∀ q ∈ (w.noted K pass turn signal).signals, Fate K q := by
    intro q hq
    rw [hsignals] at hq
    rcases List.mem_append.mp hq with hq | hq
    · exact hw.fates q hq
    · exact List.mem_singleton.mp hq ▸ hfate
  have hsublist : ((w.noted K pass turn signal).signals.filterMap SignalRecord.committedKey).Sublist
      (w.noted K pass turn signal).store.keys := by
    rw [hsignals, hkeys, List.filterMap_append]
    refine (hw.keys.trans hprefix.sublist).append ?_
    cases hkey : rec.committedKey with
    | none => simp [hkey]
    | some key => simp [hkey]
  cases hfate with
  | kept hstate hkept hkey =>
    rw [hkey] at hnudges
    have hsame : (w.noted K pass turn signal).nudges = w.nudges := hnudges.trans (List.append_nil _)
    refine ⟨hfates, hsublist, ?_, ?_⟩
    · rw [hsame]
      exact hw.spaced
    · rw [hsame, howner, hkept, hbefore]
      exact hw.covered
  | applied commit generation cycleState before after hcommit hkey hrows hcycle hfee hstate hinsert
      hwindow =>
    have hcommitted : rec.committedKey = some commit.cycleId := by
      unfold SignalRecord.committedKey
      rw [hcommit]
    rw [hcommitted] at hnudges
    have happended : (w.noted K pass turn signal).nudges =
        w.nudges ++ [(signal.channelId, signal.eventTs)] := hnudges
    rw [hbefore, hsignal] at hwindow hinsert
    -- every earlier nudge of the channel is a window before the signal
    have hearlier : ∀ ts, (signal.channelId, ts) ∈ w.nudges →
        ts + failureNudgeMinIntervalSeconds ≤ signal.eventTs := by
      intro ts hts
      obtain ⟨last, hlast, hcase⟩ := hw.covered signal.channelId ts hts
      rw [hlast] at hwindow htimed
      have hpassed := spaced_of_window (fun hzero => htimed (congrArg some hzero)) hwindow
      have hpositive : (0 : ℤ) ≤ failureNudgeMinIntervalSeconds := by decide
      omega
    refine ⟨hfates, hsublist, ?_, ?_⟩
    · rw [happended]
      refine List.pairwise_append.mpr ⟨hw.spaced, List.pairwise_singleton _ _, ?_⟩
      intro a ha b hb hsame
      have hb := List.mem_singleton.mp hb
      subst hb
      obtain ⟨channelId, ts⟩ := a
      have hchannel : channelId = signal.channelId := hsame
      subst hchannel
      exact hearlier ts ha
    · rw [happended, howner, hinsert]
      intro channelId ts hts
      rcases List.mem_append.mp hts with hts | hts
      · by_cases hchannel : signal.channelId = channelId
        · subst hchannel
          exact ⟨signal.eventTs, Dict.get_insert_self, .inr (hearlier ts hts)⟩
        · rw [Dict.get_insert_ne hchannel]
          exact hw.covered channelId ts hts
      · cases List.mem_singleton.mp hts
        exact ⟨signal.eventTs, Dict.get_insert_self, .inl rfl⟩

theorem sound_next (hw : Sound K w) {e : Event κ φ ι τ} (htimed : Timed w e) :
    Sound K (next K w e) := by
  cases e with
  | client call faults => exact ⟨hw.fates, hw.keys.trans keys_exec.sublist, hw.spaced, hw.covered⟩
  | restart lifecycle hasStore hasResultSink =>
    exact ⟨hw.fates, hw.keys, List.Pairwise.nil, fun _ _ h => by cases h⟩
  | deliver msg pass turn =>
    cases msg with
    | failedForward signal => exact sound_noted hw htimed
    | _ => exact sound_handled hw fun _ h => by cases h

/-- In every run in which no signal meets a nudge recorded at time 0 within its window: each signal
left memory alone or entered it with its own commit, no channel got its first fee state from one,
no event key was committed twice, and the nudges of a channel kept their distance. -/
theorem nudges_are_atomic_and_spaced (K : FeeKernel κ φ) (lifecycle : StateLifecycle)
    (hasStore hasResultSink : Bool) (es : List (Event κ φ ι τ))
    (h : (machine K).Follows Timed (World.start lifecycle hasStore hasResultSink) es) :
    let w := (machine K).run (World.start lifecycle hasStore hasResultSink) es
    (∀ rec ∈ w.signals, Fate K rec ∧ ∀ channelId,
      rec.before.state.feeStates.get? channelId = none →
        rec.after.state.feeStates.get? channelId = none) ∧
    (w.signals.filterMap SignalRecord.committedKey).Nodup ∧ w.store.keys.Nodup ∧
      Spaced w.nudges := by
  intro w
  have hw : Sound K w := h.invariant sound_start fun _ _ hs _ htimed => sound_next hs htimed
  refine ⟨fun rec hrec => ⟨hw.fates rec hrec, ?_⟩, hw.keys.nodup Store.keys_nodup, Store.keys_nodup,
    hw.spaced⟩
  intro channelId hnone
  cases hw.fates rec hrec with
  | kept hstate hnudges hkey =>
    rw [hstate]
    exact hnone
  | applied commit generation cycleState before after hcommit hkey hrows hcycle hfee hstate hnudges
      hwindow =>
    have hne : rec.signal.channelId ≠ channelId := by
      intro hsame
      rw [hsame, hnone] at hfee
      cases hfee
    rw [hstate]
    exact (Dict.get_insert_ne hne).trans hnone

end Runs

section Example

def signalAt (eventTs amountMsat : ℤ) : FailedForwardSignal :=
  ⟨"1x1x1", amountMsat, some 4108, none, eventTs⟩

/-- Two signals for one channel, each after a cycle that emptied the trigger queue. -/
def nudgedTwice (first second : ℤ) : List (Event ℤ (ℤ × ℤ) Unit Unit) :=
  [.deliver (.runPrepared cyclePrepared none) quietPass quietTurn,
   .deliver (.failedForward (signalAt first 1)) quietPass quietTurn,
   .deliver (.runPrepared cyclePrepared none) quietPass quietTurn,
   .deliver (.failedForward (signalAt second 2)) quietPass quietTurn]

def nudgedWorld (first second : ℤ) : World ℤ (ℤ × ℤ) Unit Unit :=
  (machine sampleKernel).run (World.start .rehydratePerCycle true true) (nudgedTwice first second)

theorem nudged_twice_in_two_windows :
    (nudgedWorld 5000 7000).nudges = [("1x1x1", 5000), ("1x1x1", 7000)] ∧
      Spaced (nudgedWorld 5000 7000).nudges ∧ (nudgedWorld 5000 7000).store.keys.Nodup := by
  have hfollows : (machine sampleKernel).Follows Timed (World.start .rehydratePerCycle true true)
      (nudgedTwice 5000 7000) := by
    refine ⟨trivial, trivial, trivial, ?_, trivial, trivial, trivial, ?_, trivial⟩
    · intro h
      cases h
    · exact fun _ => by decide
  have h :=
    nudges_are_atomic_and_spaced sampleKernel .rehydratePerCycle true true (nudgedTwice 5000 7000)
    hfollows
  exact ⟨rfl, h.2.2.2, h.2.2.1⟩

/-- A nudge recorded at time 0 reads as none, and the second one at time 0 commits too. -/
theorem nudged_twice_at_the_epoch :
    (nudgedWorld 0 0).nudges = [("1x1x1", 0), ("1x1x1", 0)] ∧
    ¬ Spaced (nudgedWorld 0 0).nudges := by
  have hnudges : (nudgedWorld 0 0).nudges = [("1x1x1", 0), ("1x1x1", 0)] := rfl
  refine ⟨hnudges, ?_⟩
  rw [hnudges]
  unfold Spaced
  decide

end Example

end FailureNudges
