import RevenueOps.FeeOwnerSteps

/-! Every cycle message of the owner is answered for. The messages are numbered in their order of
arrival, and the log of the owner's effects is counted by these numbers. -/
namespace FeeDeferral

open FeeRunway FeeOwner KeyedTable CycleOwner

variable {κ φ ι : Type}

section Scheduler

def numberedCycle (n : ℕ) (prepared : PreparedCycle ι) : PreparedCycle (ℕ × ι) :=
  { prepared with input := (n, prepared.input) }

def numberedChannel (n : ℕ) (prepared : PreparedInitialFee ι) : PreparedInitialFee (ℕ × ι) :=
  { prepared with input := (n, prepared.input) }

def numbered (n : ℕ) : CycleMsg ι Unit → CycleMsg (ℕ × ι) ℕ
  | .runPrepared prepared completion =>
    .runPrepared (numberedCycle n prepared) (completion.map fun _ => n)
  | .newChannel prepared => .newChannel (numberedChannel n prepared)
  | .newChannelRefused peerId channelHint eventTs reason =>
    .newChannelRefused peerId channelHint eventTs reason
  | .initialFeeStoreResult result => .initialFeeStoreResult result
  | .failedForward signal => .failedForward signal
  | .policyChanged peerId channelStatesRead => .policyChanged peerId channelStatesRead
  | .vegasSpikeCheck => .vegasSpikeCheck
  | .wakeAll => .wakeAll
  | .forwardEvent channelId => .forwardEvent channelId

def isCycle : CycleMsg ι Unit → Bool
  | .runPrepared _ _ => true
  | _ => false

def hasCompletion : CycleMsg ι Unit → Bool
  | .runPrepared _ completion => completion.isSome
  | _ => false

structure Delivery (κ φ ι : Type) where
  msg : CycleMsg ι Unit
  pass : Pass κ φ (ℕ × ι)
  replies : StoreReplies

structure Scheduler (κ φ ι : Type) where
  owner : CycleOwner κ φ (ℕ × ι) ℕ
  received : ℕ
  completions : List ℕ
  log : List (OwnerEffect (ℕ × ι) ℕ)

def Scheduler.start (lifecycle : StateLifecycle) (hasStore hasResultSink : Bool) :
    Scheduler κ φ ι :=
  ⟨.new lifecycle hasStore hasResultSink, 0, [], []⟩

def Scheduler.receive (K : FeeKernel κ φ) (s : Scheduler κ φ ι) (d : Delivery κ φ ι) :
    Scheduler κ φ ι :=
  let handled := s.owner.handle K d.pass d.replies (numbered s.received d.msg)
  { owner := handled.1
    received := if isCycle d.msg then s.received + 1 else s.received
    completions := if hasCompletion d.msg then s.received :: s.completions else s.completions
    log := s.log ++ handled.2 }

def Scheduler.run (K : FeeKernel κ φ) (s : Scheduler κ φ ι) (ds : List (Delivery κ φ ι)) :
    Scheduler κ φ ι := ds.foldl (Scheduler.receive K) s

end Scheduler

section Counting

def runs (n : ℕ) : OwnerEffect (ℕ × ι) ℕ → Bool
  | .ran prepared _ => prepared.input.1 = n
  | _ => false

def supersedes (n : ℕ) : OwnerEffect (ℕ × ι) ℕ → Bool
  | .superseded older _ => older.input.1 = n
  | _ => false

def answers (n : ℕ) : OwnerEffect (ℕ × ι) ℕ → Bool
  | .answered completion _ => completion = n
  | _ => false

def orderly : OwnerEffect (ℕ × ι) ℕ → Prop
  | .ran _ pending => pending = 0
  | .superseded older newer => older.input.1 < newer.input.1
  | _ => True

def isNote {α τ : Type} : OwnerEffect α τ → Bool
  | .ran _ _ => true
  | .superseded _ _ => true
  | .answered _ _ => true
  | _ => false

def Silent {α τ : Type} (es : List (OwnerEffect α τ)) : Prop := ∀ e ∈ es, isNote e = false

variable {es fs : List (OwnerEffect (ℕ × ι) ℕ)} {n : ℕ}

theorem silent_nil {α τ : Type} : Silent ([] : List (OwnerEffect α τ)) := by
  intro e he
  cases he

theorem Silent.cons {α τ : Type} {e : OwnerEffect α τ} {es : List (OwnerEffect α τ)}
    (he : isNote e = false) (hes : Silent es) : Silent (e :: es) := by
  intro f hf
  rcases List.mem_cons.mp hf with rfl | hf
  · exact he
  · exact hes f hf

theorem Silent.append {α τ : Type} {es fs : List (OwnerEffect α τ)} (h : Silent es)
    (k : Silent fs) :
    Silent (es ++ fs) := by
  intro e he
  rcases List.mem_append.mp he with he | he
  · exact h e he
  · exact k e he

theorem silent_of_audit {α τ : Type} {es : List (OwnerEffect α τ)} (h : Audit es) : Silent es := by
  intro e he
  have haudit := h e he
  cases e <;> first | rfl | cases haudit

theorem Silent.count {q : OwnerEffect (ℕ × ι) ℕ → Bool} (h : Silent es)
    (hq : ∀ e, q e = true → isNote e = true) : es.countP q = 0 := by
  apply List.countP_eq_zero.mpr
  intro e he hqe
  have hnote := h e he
  rw [hq e hqe] at hnote
  cases hnote

theorem runs_isNote {e : OwnerEffect (ℕ × ι) ℕ} (h : runs n e = true) : isNote e = true := by
  cases e <;> first | rfl | cases h

theorem supersedes_isNote {e : OwnerEffect (ℕ × ι) ℕ} (h : supersedes n e = true) :
    isNote e = true := by
  cases e <;> first | rfl | cases h

theorem answers_isNote {e : OwnerEffect (ℕ × ι) ℕ} (h : answers n e = true) : isNote e = true := by
  cases e <;> first | rfl | cases h

theorem Silent.runs (h : Silent es) : es.countP (runs n) = 0 := h.count fun _ => runs_isNote

theorem Silent.supersedes (h : Silent es) : es.countP (supersedes n) = 0 :=
  h.count fun _ => supersedes_isNote

theorem Silent.answers (h : Silent es) : es.countP (answers n) = 0 :=
  h.count fun _ => answers_isNote

theorem Silent.orderly (h : Silent es) : ∀ e ∈ es, orderly e := by
  intro e he
  have hnote := h e he
  cases e with
  | ran prepared pending => cases hnote
  | superseded older newer => cases hnote
  | _ => trivial

end Counting

section Handlers

variable {τ : Type} {K : FeeKernel κ φ} {p : Pass κ φ ι} {r : StoreReplies} {o : CycleOwner κ φ ι τ}
  {prepared : PreparedCycle ι}

theorem hydrate_silent : Silent (o.hydrate K p r).1.2 := by
  have hstored : ∀ (o : CycleOwner κ φ ι τ) stored, (o.hydrateStored K r stored).1.2 = [] := by
    intro o stored
    unfold hydrateStored
    split
    · split
      · rfl
      · split <;> rfl
    · rfl
    · rfl
  have hvirgin : ∀ (o : CycleOwner κ φ ι τ) stored, Silent (o.hydrateVirgin p stored).1.2 := by
    intro o stored
    unfold hydrateVirgin
    split
    · exact silent_nil
    · split
      · exact silent_nil
      · exact silent_nil.cons rfl
  have hmark : ∀ (o : CycleOwner κ φ ι τ) generation, (o.markRestart r generation).1.2 = [] := by
    intro o generation
    unfold markRestart
    cases r.recordRestartMarker <;> rfl
  have hseeded : Silent (o.seedOnceHydrate K p r).1.2 := by
    unfold seedOnceHydrate
    split
    · exact silent_nil
    split
    · exact silent_nil
    cases r.loadLatestState with
    | error e => exact silent_nil
    | ok stored =>
      dsimp only
      split
      · split
        · rw [hstored]
          exact silent_nil
        · exact hvirgin o stored
      · rw [hmark]
        exact silent_nil
  unfold hydrate
  split
  · exact silent_nil
  · split
    · exact silent_nil
    · dsimp only
      split
      · exact hseeded
      · exact hseeded

theorem decideAndCommit_silent : Silent (o.decideAndCommit K p r prepared).effects := by
  unfold decideAndCommit
  dsimp only
  split
  · exact silent_nil
  · split
    · exact silent_nil
    · split
      · obtain ⟨-, -, haudit⟩ := scheduleRetentionSweep_spec (r := r)
          { o with
            state := o.state.write (p.runFeeCycle o.state prepared).2
            commitSeq := o.commitSeq + 1, stateGeneration := some ‹_›, pendingSeed := none } p.now
        exact (silent_of_audit haudit).cons rfl
      · exact silent_nil.cons rfl

theorem runCycleBody_silent : Silent (o.runCycleBody K p r prepared).effects := by
  unfold runCycleBody
  cases o.cycleEvidence p r prepared with
  | error outcome => exact silent_nil
  | ok evidence =>
    dsimp only
    have hwatched := silent_of_audit (detectPolicyChanges_watched (p := p) o evidence []
      evidence.peers).audit
    split
    · exact hwatched.append hydrate_silent
    · exact (hwatched.append hydrate_silent).append decideAndCommit_silent

theorem runCycle_effects (o : CycleOwner κ φ ι τ) (prepared : PreparedCycle ι) : ∃ es, Silent es ∧
    (o.runCycle K p r prepared).2.2 = .ran prepared o.pendingInitialFees.rows.length :: es :=
  ⟨_, runCycleBody_silent.append (silent_of_audit recordTriggerReceipt_audit), rfl⟩

end Handlers

section Slot

variable {α τ : Type} {K : FeeKernel κ φ} {p : Pass κ φ α} {r : StoreReplies}
  {o : CycleOwner κ φ α τ}
  {h : Handled κ φ α τ}

/-- The slot and its completion channel stay, and nothing is said about a cycle. -/
structure Untouched (o : CycleOwner κ φ α τ) (h : Handled κ φ α τ) : Prop where
  deferred : h.1.deferredCycle = o.deferredCycle
  ack : h.1.deferredCycleAck = o.deferredCycleAck
  silent : Silent h.2

inductive SlotStep (o : CycleOwner κ φ α τ) : CycleMsg α τ → Handled κ φ α τ → Prop where
  | silent {m : CycleMsg α τ} {h : Handled κ φ α τ} (hm : ∀ prepared completion,
      m ≠ .runPrepared prepared completion)
      (hu : Untouched o h)
      (hwaits : o.deferredCycle.isSome → h.1.pendingInitialFees.isEmpty = false) : SlotStep o m h
  | resumed {m : CycleMsg α τ} (hm : ∀ prepared completion, m ≠ .runPrepared prepared completion)
      {h : Handled κ φ α τ} (prepared : PreparedCycle α) (hslot : o.deferredCycle = some prepared)
      (hdeferred : h.1.deferredCycle = none) (hack : h.1.deferredCycleAck = none)
      (es fs : List (OwnerEffect α τ)) (hes : Silent es) (hfs : Silent fs)
      (reply : Except String FeeCycleCompletion)
      (heffects : h.2 = es ++ (.ran prepared 0 :: fs ++
        o.deferredCycleAck.toList.map fun c => .answered c reply)) : SlotStep o m h
  | ran (prepared : PreparedCycle α) (completion : Option τ) {h : Handled κ φ α τ}
      (hidle : o.pendingInitialFees.isEmpty = true)
      (hdeferred : h.1.deferredCycle = o.deferredCycle)
      (hack : h.1.deferredCycleAck = o.deferredCycleAck) (fs : List (OwnerEffect α τ))
      (hfs : Silent fs)
      (reply : Except String FeeCycleCompletion)
      (heffects : h.2 = .ran prepared 0 :: fs ++ completion.toList.map fun c => .answered c reply) :
      SlotStep o (.runPrepared prepared completion) h
  | deferred (prepared : PreparedCycle α) (completion : Option τ) {h : Handled κ φ α τ}
      (hpending : h.1.pendingInitialFees.isEmpty = false)
      (hdeferred : h.1.deferredCycle = some prepared)
      (hack : h.1.deferredCycleAck = if completion.isSome then completion else o.deferredCycleAck)
      (reply : Except String FeeCycleCompletion)
      (heffects : h.2 = (o.deferredCycle.toList.map fun older => .superseded older prepared) ++
        if completion.isSome then o.deferredCycleAck.toList.map fun c =>
          .answered c reply else []) :
      SlotStep o (.runPrepared prepared completion) h

theorem rows_length_of_isEmpty {m : Dict String φ} (hm : m.isEmpty = true) : m.rows.length = 0 := by
  unfold Dict.isEmpty at hm
  rw [List.isEmpty_iff.mp hm]
  rfl

theorem Noted.untouched (hn : Noted o h) :
    Untouched o h ∧ h.1.pendingInitialFees = o.pendingInitialFees := by
  obtain ⟨q, failures, howner, haudit⟩ := hn
  rw [howner]
  exact ⟨⟨by rw [howner]; rfl, by rw [howner]; rfl, silent_of_audit haudit⟩, rfl⟩

theorem handleTrigger_untouched {trigger : TriggerQueue.FeeTrigger} {now : ℤ}
    {woken : StateWrites κ φ}
    {detail : String} : Untouched o (o.handleTrigger trigger now woken detail) ∧
      (o.handleTrigger trigger now woken detail).1.pendingInitialFees = o.pendingInitialFees := by
  obtain ⟨q, writes, howner, haudit⟩ := handleTrigger_spec o trigger now woken detail
  rw [howner]
  exact ⟨⟨by rw [howner], by rw [howner], silent_of_audit haudit⟩, rfl⟩

theorem nudge_untouched {signal : FailedForwardSignal} (hs : NudgeStep K r o signal h) :
    Untouched o h ∧ h.1.pendingInitialFees = o.pendingInitialFees := by
  cases hs with
  | kept hn => exact Noted.untouched hn
  | failed q n commit e es hreply hes => exact ⟨⟨rfl, rfl, (silent_of_audit hes).cons rfl⟩, rfl⟩
  | applied => exact ⟨⟨rfl, rfl, silent_nil.cons rfl⟩, rfl⟩

theorem newChannel_untouched {prepared : PreparedInitialFee α} (hs : NewChannelStep o prepared h) :
    Untouched o h ∧
    (o.pendingInitialFees.isEmpty = false → h.1.pendingInitialFees.isEmpty = false) := by
  cases hs with
  | kept hn =>
    obtain ⟨hu, hpending⟩ := Noted.untouched hn
    exact ⟨hu, fun hempty => hpending ▸ hempty⟩
  | dispatched q hready hfree hstore hsink =>
    exact ⟨⟨rfl, rfl, silent_nil.cons rfl⟩, fun _ => Dict.not_isEmpty_of_get Dict.get_insert_self⟩
  | unlaunched hready hfree hn =>
    obtain ⟨hu, hpending⟩ := Noted.untouched hn
    refine ⟨⟨hu.deferred, hu.ack, hu.silent⟩, fun hempty => ?_⟩
    rw [hpending, ← hempty]
    exact Dict.isEmpty_congr fun k => Dict.get_erase_insert hfree

theorem settleCommit_untouched (o : CycleOwner κ φ α τ) (channelId : String) (basis : ℕ)
    (staged : Option (φ × κ)) (result : Except String GuardedCommitOutcome) :
    Untouched o (o.settleCommit channelId basis staged result, []) := by
  unfold settleCommit
  rcases result with e | outcome
  · exact ⟨rfl, rfl, silent_nil⟩
  cases outcome with
  | generationConflict expected found => exact ⟨rfl, rfl, silent_nil⟩
  | committed generation =>
    dsimp only
    split
    · cases staged with
      | none => exact ⟨rfl, rfl, silent_nil⟩
      | some states => exact ⟨rfl, rfl, silent_nil⟩
    · exact ⟨rfl, rfl, silent_nil⟩

theorem idempotency_untouched {channelId eventKey : String} {generation : ℕ}
    (hs : IdempotencyStep K p o channelId eventKey generation h) : Untouched o h := by
  cases hs with
  | conflict => exact ⟨rfl, rfl, silent_nil⟩
  | settled prepared hawaited hn =>
    obtain ⟨hu, -⟩ := Noted.untouched hn
    exact ⟨hu.deferred, hu.ack, hu.silent⟩
  | dispatched => exact ⟨rfl, rfl, silent_nil.cons rfl⟩
  | unlaunched =>
    refine ⟨?_, ?_, silent_nil⟩
    · simp only [failedPersistence, unparked, CycleOwner.awaiting]
    · simp only [failedPersistence, unparked, CycleOwner.awaiting]

theorem applyStoreResult_untouched (result : InitialFeeStoreResult) :
    Untouched o (o.applyStoreResult K p r result) := by
  unfold applyStoreResult
  split
  · exact ⟨rfl, rfl, silent_nil⟩
  · exact ⟨rfl, rfl, silent_nil⟩
  · exact idempotency_untouched (handleIdempotencyResult_step _)
  · rename_i channelId eventKey generation result
    obtain ⟨heq, -⟩ | ⟨basis, staged, -, heq⟩ := handleCommitResult_cases o channelId
      eventKey generation result
    · rw [heq]
      exact ⟨rfl, rfl, silent_nil⟩
    · rw [heq]
      obtain ⟨hdeferred, hack, -⟩ := settleCommit_untouched (o.unparked channelId) channelId
        basis staged result
      exact ⟨hdeferred, hack, silent_nil⟩
  · rename_i result
    cases result <;> exact ⟨rfl, rfl, silent_nil⟩

theorem answerDeferred_spec (outcome : CycleOutcome) :
    (answerDeferred outcome h).1 = { h.1 with deferredCycleAck := none } ∧
      ∃ reply, (answerDeferred outcome h).2 =
        h.2 ++ h.1.deferredCycleAck.toList.map fun c => .answered c reply := by
  unfold answerDeferred
  cases hack : h.1.deferredCycleAck with
  | none =>
    refine ⟨?_, .error "", by simp⟩
    dsimp only
    rw [← hack]
  | some completion => exact ⟨rfl, h.1.cycleCompletion outcome, rfl⟩

/-- The waiting cycle runs when no new channel is in flight, and answers its completion. -/
theorem storeResult_step {result : InitialFeeStoreResult} :
    SlotStep o (.initialFeeStoreResult result) (o.handleInitialFeeStoreResult K p r result) := by
  have happlied := applyStoreResult_untouched (K := K) (p := p) (r := r) (o := o) result
  have hm : ∀ prepared completion, CycleMsg.initialFeeStoreResult result ≠
      (.runPrepared prepared completion : CycleMsg α τ) := fun _ _ hm => by cases hm
  unfold handleInitialFeeStoreResult
  generalize o.applyStoreResult K p r result = applied at happlied ⊢
  dsimp only
  unfold resumeDeferredCycle
  by_cases hempty : applied.1.pendingInitialFees.isEmpty = true
  · rw [if_pos hempty, happlied.deferred]
    cases hslot : o.deferredCycle with
    | none =>
      refine .silent hm ⟨happlied.deferred, happlied.ack, happlied.silent.append silent_nil⟩ ?_
      intro hsome
      rw [hslot] at hsome
      cases hsome
    | some prepared =>
      dsimp only
      obtain ⟨fs, hfs, heffects⟩ := runCycle_effects (K := K) (p := p) (r := r)
        { applied.1 with deferredCycle := none } prepared
      have hslots := runCycle_slots (K := K) (p := p) (r := r)
        { applied.1 with deferredCycle := none } prepared
      generalize runCycle K p r { applied.1 with deferredCycle := none } prepared = run
        at heffects hslots
      obtain ⟨howner, reply, hanswer⟩ := answerDeferred_spec (h := run.2) run.1
      refine .resumed hm prepared hslot ?_ ?_ applied.2 fs happlied.silent hfs reply ?_
      · rw [howner]
        exact hslots.deferred
      · rw [howner]
      · rw [hanswer, heffects, hslots.ack.trans happlied.ack]
        exact congrArg (fun n => applied.2 ++ (.ran prepared n :: fs ++ _))
          (rows_length_of_isEmpty hempty)
  · rw [if_neg hempty]
    refine .silent hm ⟨happlied.deferred, happlied.ack,
      happlied.silent.append silent_nil⟩ fun _ => ?_
    exact Bool.eq_false_iff.mpr hempty

theorem runPrepared_step {prepared : PreparedCycle α} {completion : Option τ} :
    SlotStep o (.runPrepared prepared completion)
      (o.handle K p r (.runPrepared prepared completion)) := by
  obtain ⟨fs, hfs, heffects⟩ := runCycle_effects (K := K) (p := p) (r := r) o prepared
  have hslots := runCycle_slots (K := K) (p := p) (r := r) o prepared
  by_cases hempty : o.pendingInitialFees.isEmpty = true
  · rw [rows_length_of_isEmpty hempty] at heffects
    cases completion with
    | none =>
      refine .ran prepared none hempty ?_ ?_ fs hfs (.error "") ?_
      all_goals simp only [CycleOwner.handle, runOrDeferCycle, hempty, if_true]
      · exact hslots.deferred
      · exact hslots.ack
      · simpa using heffects
    | some c =>
      refine .ran prepared (some c) hempty ?_ ?_ fs hfs
        ((o.runCycle K p r prepared).2.1.cycleCompletion (o.runCycle K p r prepared).1) ?_
      all_goals simp only [CycleOwner.handle, runOrDeferCycleWithAck, runOrDeferCycle,
        hempty, if_true]
      · exact hslots.deferred
      · exact hslots.ack
      · simp [heffects]
  · have hpending : o.pendingInitialFees.isEmpty = false := Bool.eq_false_iff.mpr hempty
    cases completion with
    | none =>
      refine .deferred prepared none ?_ ?_ ?_ (.error "") ?_
      all_goals simp only [CycleOwner.handle, runOrDeferCycle, hempty, deferCycle]
      all_goals cases o.deferredCycle <;> simp [hpending]
    | some c =>
      refine .deferred prepared (some c) ?_ ?_ ?_
        (.error "deferred cycle superseded before execution") ?_
      all_goals simp only [CycleOwner.handle, runOrDeferCycleWithAck, runOrDeferCycle, hempty,
        deferCycle]
      all_goals cases o.deferredCycle <;> simp [hpending]

theorem handle_step (hwaits : o.deferredCycle.isSome → o.pendingInitialFees.isEmpty = false)
    (m : CycleMsg α τ) : SlotStep o m (o.handle K p r m) := by
  have hkept : ∀ {m : CycleMsg α τ} {h : Handled κ φ α τ},
    (∀ prepared completion, m ≠ .runPrepared prepared completion) →
      (Untouched o h ∧ h.1.pendingInitialFees = o.pendingInitialFees) → SlotStep o m h :=
    fun hm hk => .silent hm hk.1 fun hsome => hk.2 ▸ hwaits hsome
  cases m with
  | runPrepared prepared completion => exact runPrepared_step
  | newChannel prepared =>
    obtain ⟨hu, hpending⟩ := newChannel_untouched
      (handleNewChannel_step (K := K) (p := p) (r := r) (o := o) prepared)
    exact .silent (fun _ _ hm => by cases hm) hu fun hsome => hpending (hwaits hsome)
  | newChannelRefused peerId channelHint eventTs reason =>
    exact hkept (fun _ _ hm => by cases hm) (Noted.untouched handleNewChannelRefused_noted)
  | initialFeeStoreResult result => exact storeResult_step
  | failedForward signal =>
    exact hkept (fun _ _ hm => by cases hm)
      (nudge_untouched (K := K) (r := r) (handleFailedForward_step _))
  | policyChanged peerId channelStatesRead =>
    refine hkept (fun _ _ hm => by cases hm) ?_
    cases channelStatesRead with
    | true => exact handleTrigger_untouched
    | false => exact ⟨⟨rfl, rfl, silent_nil⟩, rfl⟩
  | vegasSpikeCheck => exact hkept (fun _ _ hm => by cases hm) handleTrigger_untouched
  | wakeAll => exact hkept (fun _ _ hm => by cases hm) handleTrigger_untouched
  | forwardEvent channelId => exact hkept (fun _ _ hm => by cases hm) handleTrigger_untouched

end Slot

section Accounting

variable {K : FeeKernel κ φ} {s : Scheduler κ φ ι} {h : Handled κ φ (ℕ × ι) ℕ} {n : ℕ}

def Scheduler.waiting (s : Scheduler κ φ ι) : Option ℕ :=
  s.owner.deferredCycle.map fun c => c.input.1

def Scheduler.runCount (s : Scheduler κ φ ι) (n : ℕ) : ℕ := s.log.countP (runs n)
def Scheduler.supersededCount (s : Scheduler κ φ ι) (n : ℕ) : ℕ := s.log.countP (supersedes n)
def Scheduler.answerCount (s : Scheduler κ φ ι) (n : ℕ) : ℕ := s.log.countP (answers n)

/-- The message's cycle ran exactly once, or did not run because a newer one took its place. -/
def Scheduler.Settled (s : Scheduler κ φ ι) (n : ℕ) : Prop :=
  (s.runCount n = 1 ∧ s.supersededCount n = 0) ∨
    (s.runCount n = 0 ∧ ∃ older newer, OwnerEffect.superseded older newer ∈ s.log ∧
      older.input.1 = n ∧ n < newer.input.1)

/-- A received cycle message waits in the slot or is settled, and a completion channel is held
or was answered once. -/
structure Accounted (s : Scheduler κ φ ι) : Prop where
  waits : s.owner.deferredCycle.isSome → s.owner.pendingInitialFees.isEmpty = false
  acks : s.owner.deferredCycleAck.isSome → s.owner.deferredCycle.isSome
  known : ∀ n, s.waiting = some n → n < s.received
  settled : ∀ n, s.runCount n + s.supersededCount n + (if s.waiting = some n then 1 else 0) =
    if n < s.received then 1 else 0
  completions : ∀ n ∈ s.completions, n < s.received
  answered : ∀ n, s.answerCount n + (if s.owner.deferredCycleAck = some n then 1 else 0) =
    if n ∈ s.completions then 1 else 0
  ordered : ∀ e ∈ s.log, orderly e

theorem accounted_start {lifecycle : StateLifecycle} {hasStore hasResultSink : Bool} :
    Accounted (Scheduler.start lifecycle hasStore hasResultSink : Scheduler κ φ ι) where
  waits h := by cases h
  acks h := by cases h
  known n h := by cases h
  settled n := rfl
  completions n h := by cases h
  answered n := rfl
  ordered e h := by cases h

theorem countP_answered {c : Option ℕ} {reply : Except String FeeCycleCompletion} :
    (c.toList.map fun c => (.answered c reply : OwnerEffect (ℕ × ι) ℕ)).countP (answers n) =
      if c = some n then 1 else 0 := by
  cases c with
  | none => rfl
  | some c => by_cases hc : c = n <;> simp [answers, hc]

theorem countP_answered_runs {c : Option ℕ} {reply : Except String FeeCycleCompletion} :
    (c.toList.map fun c => (.answered c reply : OwnerEffect (ℕ × ι) ℕ)).countP (runs n) = 0 := by
  cases c <;> simp [runs]

theorem countP_answered_supersedes {c : Option ℕ} {reply : Except String FeeCycleCompletion} :
    (c.toList.map fun c => (.answered c reply : OwnerEffect (ℕ × ι) ℕ)).countP
      (supersedes n) = 0 := by
  cases c <;> simp [supersedes]

structure Counted (es : List (OwnerEffect (ℕ × ι) ℕ)) (ran superseded : Option ℕ)
    (answered : Option ℕ) : Prop where
  runs : ∀ n, es.countP (runs n) = if ran = some n then 1 else 0
  supersedes : ∀ n, es.countP (supersedes n) = if superseded = some n then 1 else 0
  answers : ∀ n, es.countP (answers n) = if answered = some n then 1 else 0
  ordered : ∀ e ∈ es, orderly e

theorem counted_silent {es : List (OwnerEffect (ℕ × ι) ℕ)} (hes : Silent es) :
    Counted es none none none :=
  ⟨fun _ => hes.runs, fun _ => hes.supersedes, fun _ => hes.answers, hes.orderly⟩

theorem counted_ran {es fs : List (OwnerEffect (ℕ × ι) ℕ)} {prepared : PreparedCycle (ℕ × ι)}
    {c : Option ℕ} {reply : Except String FeeCycleCompletion} (hes : Silent es) (hfs : Silent fs) :
    Counted (es ++ (.ran prepared 0 :: fs ++ c.toList.map fun c => .answered c reply))
      (some prepared.input.1) none c where
  runs n := by
    rw [List.countP_append, List.cons_append, List.countP_cons, List.countP_append,
      hes.runs, hfs.runs,
      countP_answered_runs]
    simp [FeeDeferral.runs]
  supersedes n := by
    rw [List.countP_append, List.cons_append, List.countP_cons, List.countP_append, hes.supersedes,
      hfs.supersedes, countP_answered_supersedes]
    simp [FeeDeferral.supersedes]
  answers n := by
    rw [List.countP_append, List.cons_append, List.countP_cons, List.countP_append, hes.answers,
      hfs.answers, countP_answered]
    simp [FeeDeferral.answers]
  ordered e he := by
    rcases List.mem_append.mp he with he | he
    · exact hes.orderly e he
    rcases List.mem_cons.mp he with rfl | he
    · exact rfl
    rcases List.mem_append.mp he with he | he
    · exact hfs.orderly e he
    · obtain ⟨c, -, rfl⟩ := List.mem_map.mp he
      trivial

theorem counted_deferred {older : Option (PreparedCycle (ℕ × ι))} {prepared : PreparedCycle (ℕ × ι)}
    {c : Option ℕ} {reply : Except String FeeCycleCompletion}
    (hnewer : ∀ q, older = some q → q.input.1 < prepared.input.1) :
    Counted ((older.toList.map fun q => .superseded q prepared) ++
        (c.toList.map fun c => .answered c reply)) none (older.map fun q => q.input.1) c where
  runs n := by
    rw [List.countP_append, countP_answered_runs]
    cases older <;> simp [FeeDeferral.runs]
  supersedes n := by
    rw [List.countP_append, countP_answered_supersedes]
    cases older with
    | none => rfl
    | some q => by_cases hq : q.input.1 = n <;> simp [FeeDeferral.supersedes, hq]
  answers n := by
    rw [List.countP_append, countP_answered]
    cases older <;> simp [FeeDeferral.answers]
  ordered e he := by
    rcases List.mem_append.mp he with he | he
    · obtain ⟨q, hq, rfl⟩ := List.mem_map.mp he
      exact hnewer q (Option.mem_toList.mp hq)
    · obtain ⟨c, -, rfl⟩ := List.mem_map.mp he
      trivial

theorem numbered_ne {d : CycleMsg ι Unit} (hd : ∀ prepared completion,
    numbered n d ≠ .runPrepared prepared completion) :
    isCycle d = false ∧ hasCompletion d = false := by
  cases d with
  | runPrepared prepared completion => exact absurd rfl (hd _ _)
  | _ => exact ⟨rfl, rfl⟩

theorem numbered_eq {m : CycleMsg ι Unit} {prepared : PreparedCycle (ℕ × ι)} {completion : Option ℕ}
    (hm : numbered n m = .runPrepared prepared completion) :
    isCycle m = true ∧ prepared.input.1 = n ∧ completion = if hasCompletion m then some n
      else none := by
  cases m with
  | runPrepared raw given =>
    cases hm
    cases given <;> exact ⟨rfl, rfl, rfl⟩
  | _ => cases hm

/-- One message keeps the account, where what it adds to the log balances what it
does to the slot. -/
theorem accounted_of (hs : Accounted s) {received : ℕ} {completions : List ℕ}
    {ran superseded answered : Option ℕ} (hc : Counted h.2 ran superseded answered)
    (hwaits : h.1.deferredCycle.isSome → h.1.pendingInitialFees.isEmpty = false)
    (hacks : h.1.deferredCycleAck.isSome → h.1.deferredCycle.isSome)
    (hknown : ∀ n, (h.1.deferredCycle.map fun c => c.input.1) = some n → n < received)
    (hslot : ∀ n, (if ran = some n then 1 else 0) + (if superseded = some n then 1 else 0) +
        (if (h.1.deferredCycle.map fun c => c.input.1) = some n then 1 else 0) +
        (if n < s.received then 1 else 0) =
      (if s.waiting = some n then 1 else 0) + (if n < received then 1 else 0))
    (hcompletions : ∀ n ∈ completions, n < received)
    (hack : ∀ n, (if answered = some n then 1 else 0) +
        (if h.1.deferredCycleAck = some n then 1 else 0) + (if n ∈ s.completions then 1 else 0) =
      (if s.owner.deferredCycleAck = some n then 1 else 0) + (if n ∈ completions then 1 else 0)) :
    Accounted ⟨h.1, received, completions, s.log ++ h.2⟩ where
  waits := hwaits
  acks := hacks
  known := hknown
  settled n := by
    have hold := hs.settled n
    have hbalance := hslot n
    simp only [Scheduler.runCount, Scheduler.supersededCount, List.countP_append,
      hc.runs, hc.supersedes]
      at hold ⊢
    have hwaiting :
        Scheduler.waiting (⟨h.1, received, completions, s.log ++ h.2⟩ : Scheduler κ φ ι) =
        h.1.deferredCycle.map fun c => c.input.1 := rfl
    rw [hwaiting]
    omega
  completions := hcompletions
  answered n := by
    have hold := hs.answered n
    have hbalance := hack n
    simp only [Scheduler.answerCount, List.countP_append, hc.answers] at hold ⊢
    omega
  ordered e he := by
    rcases List.mem_append.mp he with he | he
    · exact hs.ordered e he
    · exact hc.ordered e he

theorem Accounted.fresh (hs : Accounted s) : s.received ∉ s.completions := by
  intro hmem
  exact absurd (hs.completions _ hmem) (Nat.lt_irrefl _)

theorem completions_received (hs : Accounted s) {d : Delivery κ φ ι} :
    ∀ n ∈ (if hasCompletion d.msg then s.received :: s.completions else s.completions),
      n < s.received + 1 := by
  intro n hn
  cases hcase : hasCompletion d.msg with
  | true =>
    rw [hcase, if_pos rfl] at hn
    rcases List.mem_cons.mp hn with rfl | hn
    · omega
    · exact Nat.lt_succ_of_lt (hs.completions n hn)
  | false =>
    rw [hcase, if_neg Bool.false_ne_true] at hn
    exact Nat.lt_succ_of_lt (hs.completions n hn)

theorem balance_completion (hs : Accounted s) {d : Delivery κ φ ι} :
    (if (if hasCompletion d.msg then some s.received else none) = some n then 1 else 0) +
        (if (none : Option ℕ) = some n then 1 else 0) + (if n ∈ s.completions then 1 else 0) =
      (if (none : Option ℕ) = some n then 1 else 0) +
        (if n ∈ (if hasCompletion d.msg then s.received :: s.completions else s.completions)
          then 1 else 0) := by
  cases hcase : hasCompletion d.msg with
  | false => simp
  | true =>
    by_cases hn : s.received = n
    · subst hn
      simp [hs.fresh]
    · have hn' : n ≠ s.received := fun h => hn h.symm
      simp [hn, hn']

theorem accounted_receive (hs : Accounted s) (d : Delivery κ φ ι) : Accounted (s.receive K d) := by
  have hstep :=
    handle_step (K := K) (p := d.pass) (r := d.replies) hs.waits (numbered s.received d.msg)
  generalize hm : numbered s.received d.msg = m at hstep
  generalize hh : s.owner.handle K d.pass d.replies m = h at hstep
  have hreceive : s.receive K d = ⟨h.1, if isCycle d.msg then s.received + 1 else s.received,
      if hasCompletion d.msg then s.received :: s.completions else s.completions,
        s.log ++ h.2⟩ := by
    unfold Scheduler.receive
    rw [hm, hh]
  have hwaiting : s.waiting = s.owner.deferredCycle.map fun c => c.input.1 := rfl
  rw [hreceive]
  cases hstep with
  | silent hne hu hwaits =>
    obtain ⟨hcycle, hcompletion⟩ := numbered_ne fun a b => hm ▸ hne a b
    simp only [hcycle, hcompletion, Bool.false_eq_true, if_false]
    refine accounted_of hs (counted_silent hu.silent) ?_ ?_ ?_ ?_ hs.completions ?_
    · rw [hu.deferred]
      exact hwaits
    · rw [hu.deferred, hu.ack]
      exact hs.acks
    · rw [hu.deferred]
      exact hs.known
    · intro n
      rw [hu.deferred, hwaiting]
      simp
    · intro n
      rw [hu.ack]
      simp
  | resumed hne prepared hslot hdeferred hack es fs hes hfs reply heffects =>
    obtain ⟨hcycle, hcompletion⟩ := numbered_ne fun a b => hm ▸ hne a b
    simp only [hcycle, hcompletion, Bool.false_eq_true, if_false]
    refine accounted_of hs (heffects ▸ counted_ran hes hfs) ?_ ?_ ?_ ?_ hs.completions ?_
    · simp [hdeferred]
    · simp [hack]
    · simp [hdeferred]
    · intro n
      rw [hdeferred, hwaiting, hslot]
      simp
    · intro n
      rw [hack]
      simp
  | ran prepared completion hidle hdeferred hack fs hfs reply heffects =>
    obtain ⟨hcycle, hnumber, hcompletion⟩ := numbered_eq hm
    have hslot : s.owner.deferredCycle = none := by
      cases hq : s.owner.deferredCycle with
      | none => rfl
      | some q =>
        have hbusy := hs.waits (by rw [hq]; rfl)
        rw [hidle] at hbusy
        cases hbusy
    have hnone : s.owner.deferredCycleAck = none := by
      cases hq : s.owner.deferredCycleAck with
      | none => rfl
      | some c =>
        have hsome := hs.acks (by rw [hq]; rfl)
        rw [hslot] at hsome
        cases hsome
    simp only [hcycle, if_true]
    rw [heffects]
    refine accounted_of (h := (h.1, _)) hs (counted_ran silent_nil hfs) ?_ ?_ ?_ ?_ ?_ ?_
    · simp [hdeferred, hslot]
    · simp [hack, hnone]
    · simp [hdeferred, hslot]
    · intro n
      rw [hdeferred, hwaiting, hslot, hnumber]
      by_cases hn : s.received = n
      · subst hn
        simp
      · have hlt : n < s.received + 1 ↔ n < s.received := by omega
        simp [hn, hlt]
    · exact completions_received hs
    · intro n
      rw [hack, hnone, hcompletion]
      exact balance_completion hs
  | deferred prepared completion hpending hdeferred hack reply heffects =>
    obtain ⟨hcycle, hnumber, hcompletion⟩ := numbered_eq hm
    have hnewer : ∀ q, s.owner.deferredCycle = some q → q.input.1 < prepared.input.1 := by
      intro q hq
      rw [hnumber]
      exact hs.known q.input.1 (by rw [hwaiting, hq]; rfl)
    simp only [hcycle, if_true]
    rw [heffects]
    have hsuperseded : (if completion.isSome then s.owner.deferredCycleAck.toList.map
          fun c => (.answered c reply : OwnerEffect (ℕ × ι) ℕ) else []) =
        ((if completion.isSome then s.owner.deferredCycleAck else none).toList.map
          fun c => .answered c reply) := by
      cases completion <;> rfl
    rw [hsuperseded]
    refine accounted_of (h := (h.1, _)) hs (counted_deferred hnewer) ?_ ?_ ?_ ?_ ?_ ?_
    · intro _
      exact hpending
    · intro _
      rw [hdeferred]
      rfl
    · intro n hn
      rw [hdeferred] at hn
      have hlast : prepared.input.1 = n := Option.some.inj hn
      omega
    · intro n
      rw [hdeferred, ← hwaiting]
      have hold : s.waiting = some n → n < s.received := hs.known n
      simp only [Option.map_some, hnumber, Option.some.injEq]
      by_cases hn : s.received = n
      · subst hn
        have hne : s.waiting ≠ some s.received := fun hw => absurd (hold hw) (Nat.lt_irrefl _)
        simp [hne]
      · have hlt : n < s.received + 1 ↔ n < s.received := by omega
        simp [hn, hlt]
    · exact completions_received hs
    · intro n
      rw [hack, hcompletion]
      have hbalance := balance_completion (d := d) (n := n) hs
      cases hcase : hasCompletion d.msg with
      | true =>
        simp only [hcase, if_true, Option.isSome_some] at hbalance ⊢
        simp only [reduceCtorEq, if_false] at hbalance
        omega
      | false => simp

theorem accounted_run (hs : Accounted s) (ds : List (Delivery κ φ ι)) : Accounted (s.run K ds) := by
  induction ds generalizing s with
  | nil => exact hs
  | cons d ds ih => exact ih (accounted_receive hs d)

theorem Accounted.settles (hs : Accounted s) (hidle : s.owner.pendingInitialFees.isEmpty = true)
    (hn : n < s.received) : s.Settled n := by
  have hwaiting : s.waiting = none := by
    cases hslot : s.owner.deferredCycle with
    | none => simp [Scheduler.waiting, hslot]
    | some prepared =>
      have hbusy := hs.waits (by rw [hslot]; rfl)
      rw [hidle] at hbusy
      cases hbusy
  have hcount := hs.settled n
  rw [hwaiting, if_pos hn] at hcount
  simp only [reduceCtorEq, if_false, Nat.add_zero] at hcount
  by_cases hran : s.runCount n = 0
  · right
    have hpos : 0 < s.log.countP (supersedes n) := by
      have hone : s.supersededCount n = 1 := by omega
      rw [← Scheduler.supersededCount, hone]
      exact Nat.one_pos
    obtain ⟨e, he, hsuperseded⟩ := List.countP_pos_iff.mp hpos
    cases e with
    | superseded older newer =>
      have holder : older.input.1 = n := by simpa [supersedes] using hsuperseded
      exact ⟨hran, older, newer, he, holder, holder ▸ hs.ordered _ he⟩
    | _ => cases hsuperseded
  · left
    omega

theorem Accounted.answeredOnce (hs : Accounted s)
    (hidle : s.owner.pendingInitialFees.isEmpty = true)
    (hn : n ∈ s.completions) : s.answerCount n = 1 := by
  have hcount := hs.answered n
  rw [if_pos hn] at hcount
  cases hack : s.owner.deferredCycleAck with
  | none => simpa [hack] using hcount
  | some c =>
    have hbusy := hs.waits (hs.acks (by rw [hack]; rfl))
    rw [hidle] at hbusy
    cases hbusy

/-- Deferred cycles are neither lost nor run twice, whatever messages the owner receives. -/
theorem deferred_cycles_settle (K : FeeKernel κ φ) (lifecycle : StateLifecycle)
    (hasStore hasResultSink : Bool) (ds : List (Delivery κ φ ι)) :
    let s := (Scheduler.start lifecycle hasStore hasResultSink).run K ds
    (∀ prepared pending, OwnerEffect.ran prepared pending ∈ s.log → pending = 0) ∧
    (s.owner.deferredCycle.isSome → s.owner.pendingInitialFees.isEmpty = false) ∧
    (∀ n, s.answerCount n ≤ 1) ∧
    (s.owner.pendingInitialFees.isEmpty = true → ∀ n < s.received,
      s.Settled n ∧ (n ∈ s.completions → s.answerCount n = 1)) := by
  intro s
  have hs : Accounted s := accounted_run accounted_start ds
  refine ⟨fun prepared pending he => hs.ordered _ he, hs.waits, ?_, ?_⟩
  · intro n
    have hcount := hs.answered n
    have hle : (if n ∈ s.completions then 1 else 0) ≤ 1 := by split <;> omega
    omega
  · intro hidle n hn
    exact ⟨hs.settles hidle hn, hs.answeredOnce hidle⟩

end Accounting

end FeeDeferral
