import RevenueOps.OwnerViewSteps

/-! The messages of the owner on the view: new channels, the answers of the store, and failed
forwards. -/
namespace OwnerStore

open FallibleState SqlTransaction FeeRunway FeeOwner FeeStore KeyedTable CycleOwner StateMachine

variable {κ φ ι τ : Type}

section Conditions

def drained (p : Pass κ φ ι) (o : CycleOwner κ φ ι τ) : CycleOwner κ φ ι τ :=
  { o with
    triggerQueue := (o.triggerQueue.offer .fixedInterval p.now).2.drainAll
    appliedFailureNudgesPending := [] }

def watchedState (p : Pass κ φ ι) (o : CycleOwner κ φ ι τ) (evidence : Evidence) :
    ControllerState κ φ :=
  (detectPolicyChanges p evidence [] evidence.peers (drained p o)).1.state

def FailsClean (K : FeeKernel κ φ) (p : Pass κ φ ι) (o : CycleOwner κ φ ι τ)
    (prepared : PreparedCycle ι) :
    Prop :=
  ∀ evidence, p.evidence prepared = some evidence →
    let s := watchedState p o evidence
    (p.runFeeCycle s prepared).1 = none →
      ∀ channelId, memoryRow K (s.write (p.runFeeCycle s prepared).2) channelId =
        memoryRow K o.state channelId

def World.cycleOf (K : FeeKernel κ φ) (w : World κ φ ι τ) (pass : Pass κ φ ι) (turn : StoreTurn) :
    CycleMsg ι τ → Option (CycleOwner κ φ ι τ × PreparedCycle ι)
  | .runPrepared prepared _ =>
    if w.owner.pendingInitialFees.isEmpty then some (w.owner, prepared) else none
  | .initialFeeStoreResult result =>
    let applied := (w.owner.applyStoreResult K pass (turn.replies w.store) result).1
    if applied.pendingInitialFees.isEmpty then
      applied.deferredCycle.map fun prepared => ({ applied with deferredCycle := none }, prepared)
    else none
  | _ => none

/-- A result under the identity of an awaited commit is that commit's own, and a conflict among them
names the owner's generation or finds no other commit of states on its way. -/
structure Genuine (v : View κ φ ι) (channelId eventKey : String) (generation : ℕ)
    (result : Except String GuardedCommitOutcome) : Prop where
  given : .commit channelId eventKey generation result ∈ v.results
  conflict : ∀ expected found, result = .ok (.generationConflict expected found) →
    v.generation = some found ∨ ∀ other, ¬ v.Landed other ∧ ¬ v.Landing other

structure Careful (K : FeeKernel κ φ) (w : World κ φ ι τ) (msg : CycleMsg ι τ) (pass : Pass κ φ ι)
    (turn : StoreTurn) : Prop where
  nudge : ∀ signal, msg = .failedForward signal →
    (∃ commit, .commitFeeCycle commit ∈ (w.owner.handle K pass (turn.replies w.store) msg).2) →
      ∀ channelId, ¬ w.view.Landed channelId
  genuine : ∀ channelId eventKey generation result basis staged,
    msg = .initialFeeStoreResult (.commit channelId eventKey generation result) →
      w.owner.pendingInitialFees.get? channelId =
        some (.committing eventKey generation basis staged) →
      Genuine w.view channelId eventKey generation result
  clean : ∀ o prepared, w.cycleOf K pass turn msg = some (o, prepared) →
    FailsClean K pass o prepared

end Conditions

section Absorb

variable {K : FeeKernel κ φ} {v : View κ φ ι} {o : CycleOwner κ φ ι τ} {turn : StoreTurn}
  {es fs : List (OwnerEffect ι τ)}

def View.under (v : View κ φ ι) (o : CycleOwner κ φ ι τ) : View κ φ ι :=
  { v with
    memory := o.state
    generation := o.stateGeneration
    pending := o.pendingInitialFees
    seq := o.initialFeeDispatchSeq }

/-- The view after a handler, with its effects on the store and on the flight. -/
def View.absorb (v : View κ φ ι) (turn : StoreTurn) (h : Handled κ φ ι τ) : View κ φ ι :=
  { v.under h.1 with
    store := h.2.foldl turn.apply v.store
    commits := v.commits ++ h.2.filterMap dispatchOf
    dispatched := v.dispatched ++ h.2.filterMap dispatchOf }

/-- Effects that reach neither the channel rows nor the commits in flight. -/
def Inert (es : List (OwnerEffect ι τ)) : Prop :=
  ∀ e ∈ es, dispatchOf e = none ∧ ∀ (turn : StoreTurn) s, turn.apply s e = s

theorem inert_of_audit (h : Audit es) : Inert es := by
  intro e he
  have haudit := h e he
  cases e <;> first | exact ⟨rfl, fun _ _ => rfl⟩ | cases haudit

theorem Inert.append (h : Inert es) (k : Inert fs) : Inert (es ++ fs) := by
  intro e he
  rcases List.mem_append.mp he with he | he
  · exact h e he
  · exact k e he

theorem Inert.cons {e : OwnerEffect ι τ}
    (he : dispatchOf e = none ∧ ∀ (turn : StoreTurn) s, turn.apply s e = s)
    (h : Inert es) : Inert (e :: es) := by
  intro f hf
  rcases List.mem_cons.mp hf with rfl | hf
  · exact he
  · exact h f hf

theorem Inert.dispatches (h : Inert es) : es.filterMap dispatchOf = [] :=
  List.filterMap_eq_nil_iff.mpr fun e he => (h e he).1

theorem Inert.store (h : Inert es) {s : Store} : es.foldl turn.apply s = s := by
  induction es with
  | nil => rfl
  | cons e es ih =>
    rw [List.foldl_cons, (h e List.mem_cons_self).2]
    exact ih fun f hf => h f (List.mem_cons_of_mem _ hf)

theorem absorb_inert (h : Inert es) : v.absorb turn (o, es) = v.under o := by
  unfold View.absorb
  rw [h.dispatches, h.store, List.append_nil, List.append_nil]
  rfl

theorem absorb_append {o' : CycleOwner κ φ ι τ} :
    v.absorb turn (o', es ++ fs) = (v.absorb turn (o, es)).absorb turn (o', fs) := by
  unfold View.absorb
  simp only [List.foldl_append, List.filterMap_append, ← List.append_assoc]
  rfl

def View.Reads (v : View κ φ ι) (o : CycleOwner κ φ ι τ) : Prop := v.under o = v

theorem handled_view {w : World κ φ ι τ} {msg : CycleMsg ι τ} {pass : Pass κ φ ι}
    (halone : turn.between = []) :
    (w.handled K msg pass turn).view =
      w.view.absorb turn (w.owner.handle K pass (turn.replies w.store) msg) := by
  unfold World.handled World.view View.absorb View.under StoreTurn.after
  rw [halone]
  rfl

end Absorb

section Messages

variable {K : FeeKernel κ φ} {p : Pass κ φ ι} {v : View κ φ ι} {o : CycleOwner κ φ ι τ}
  {turn : StoreTurn} {h : Handled κ φ ι τ}

theorem absorb_noted (hr : v.Reads o) (hn : Noted o h) : v.absorb turn h = v := by
  obtain ⟨q, failures, howner, haudit⟩ := hn
  obtain ⟨o', es⟩ := h
  rw [absorb_inert (inert_of_audit haudit)]
  have howner' : o' = o.noted q failures := howner
  rw [howner']
  exact hr

theorem synced_newChannel {prepared : PreparedInitialFee ι} (hv : v.Synced K) (hr : v.Reads o)
    (hs : NewChannelStep o prepared h) : (v.absorb turn h).Synced K := by
  have hpending : v.pending = o.pendingInitialFees := congrArg View.pending hr.symm
  cases hs with
  | kept hn =>
    rw [absorb_noted hr hn]
    exact hv
  | dispatched q hready hfree hstore hsink =>
    have hparked : v.absorb turn ((o.noted q o.persistenceFailures).checking prepared,
        [.dispatchCycleExists prepared.channelId prepared.eventKey (o.initialFeeDispatchSeq + 1)]) =
        v.parkCheck prepared := by
      rw [absorb_inert (Inert.cons ⟨rfl, fun _ _ => rfl⟩ fun e he => by cases he), ← hr]
      rfl
    rw [hparked]
    exact synced_parkCheck hv (hpending ▸ hfree)
  | unlaunched hready hfree hn =>
    have hchecked : (v.parkCheck prepared).unpark prepared.channelId =
        v.under ((o.checking prepared).unparked prepared.channelId) := by
      rw [← hr]
      rfl
    have hsynced :=
      synced_parkCheck hv (hpending ▸ hfree : v.pending.get? prepared.channelId = none)
    have hfreed : ∀ d ∈ v.commits, d.channelId ≠ prepared.channelId := by
      intro d hd hsame
      obtain ⟨staged, hawaited, -⟩ := hv.identified.inFlight d hd
      rw [hsame, hpending, hfree] at hawaited
      cases hawaited
    have hunlanded : ¬ (v.parkCheck prepared).Landed prepared.channelId := by
      rintro ⟨key, gen, basis, staged, n, howed⟩
      have hawaited := (owed_parkCheck howed).awaited
      rw [hpending, hfree] at hawaited
      cases hawaited
    have hunparked := synced_unpark hsynced hfreed hunlanded
    rw [hchecked] at hunparked
    have hsame : v.absorb turn h =
        (v.under ((o.checking prepared).unparked prepared.channelId)).absorb turn h := rfl
    have hreads : (v.under ((o.checking prepared).unparked prepared.channelId)).Reads
        ((o.checking prepared).unparked prepared.channelId) := rfl
    rw [hsame, absorb_noted hreads hn]
    exact hunparked

theorem synced_idempotency {channelId eventKey : String} {generation : ℕ} (hv : v.Synced K)
    (hr : v.Reads o) (hs : IdempotencyStep K p o channelId eventKey generation h) :
    (v.absorb turn h).Synced K := by
  have hpending : v.pending = o.pendingInitialFees := congrArg View.pending hr.symm
  have hgeneration : v.generation = o.stateGeneration := congrArg View.generation hr.symm
  -- the entry of a check is in nobody's way
  have hunparked : ∀ prepared, o.pendingInitialFees.get? channelId =
      some (.checkingIdempotency eventKey generation prepared) → (v.unpark channelId).Synced K := by
    intro prepared hawaited
    rw [← hpending] at hawaited
    refine synced_unpark hv ?_ ?_
    · intro d hd hsame
      obtain ⟨staged, hentry, -⟩ := hv.identified.inFlight d hd
      rw [hsame, hawaited] at hentry
      cases hentry
    · rintro ⟨key, gen, basis, staged, n, howed⟩
      have hentry := hawaited.symm.trans howed.awaited
      cases hentry
  have hunder : v.unpark channelId = v.under (o.unparked channelId) := by
    rw [← hr]
    rfl
  have hbasis : ∀ basis, (∀ g, o.stateGeneration = some g → basis = g) →
      o.stateGeneration = some basis := by
    intro basis hb
    obtain ⟨g, hg, -⟩ := hv.agrees.tracked
    rw [hgeneration] at hg
    rw [hg, hb g hg]
  cases hs with
  | conflict =>
    rw [absorb_inert (fun e he => by cases he)]
    have hsame : v.under o.conflicted = v := hr
    rw [hsame]
    exact hv
  | settled prepared hawaited hn =>
    have hreads : (v.under (o.unparked channelId)).Reads (o.unparked channelId) := rfl
    have hsame : v.absorb turn h = (v.under (o.unparked channelId)).absorb turn h := rfl
    rw [hsame, absorb_noted hreads hn, ← hunder]
    exact hunparked prepared hawaited
  | dispatched prepared basis hawaited hb =>
    have hchannel : prepared.channelId = channelId :=
      hv.identified.keyed channelId eventKey generation prepared (hpending ▸ hawaited)
    subst hchannel
    have hcurrent := hbasis basis hb
    have hsynced := hunparked prepared hawaited
    rw [← hpending] at hawaited
    have hparked :
        v.absorb turn ((o.unparked prepared.channelId).awaiting p prepared generation basis,
        [.dispatchCommit prepared.channelId prepared.eventKey generation
          (initialFeeCommit K prepared (o.initialDecision p prepared)) basis]) =
        (v.unpark prepared.channelId).parkCommit ⟨prepared.channelId, prepared.eventKey, generation,
          initialFeeCommit K prepared (o.initialDecision p prepared), basis⟩
          ((o.unparked prepared.channelId).initialDecision p prepared).staged := by
      unfold CycleOwner.awaiting
      rw [← hcurrent, ← hr]
      rfl
    rw [hparked]
    refine synced_parkCommit hsynced ⟨Dict.get_erase_self, ?_, ?_, ?_,
      hgeneration.trans hcurrent, rfl⟩
    · exact hv.identified.fresh _ _ _ prepared hawaited
    · exact hv.identified.issued _ _ hawaited
    · intro other entry hentry hsame
      obtain ⟨hentry, hne⟩ := get_of_erase hentry
      exact hne (hv.identified.injective _ _ _ _ hawaited hentry hsame.symm)
  | unlaunched prepared basis hawaited hb =>
    have hchannel : prepared.channelId = channelId :=
      hv.identified.keyed channelId eventKey generation prepared (hpending ▸ hawaited)
    subst hchannel
    have hcurrent := hbasis basis hb
    rw [absorb_inert (fun e he => by cases he)]
    have hsame :
        v.under ((((o.unparked prepared.channelId).awaiting p prepared generation basis).unparked
        prepared.channelId).failedPersistence) = v.under (o.unparked prepared.channelId) := by
      unfold View.under CycleOwner.failedPersistence CycleOwner.unparked CycleOwner.awaiting
      simp only [hcurrent, Dict.erase_insert_self, Dict.erase_erase_self]
    rw [hsame, ← hunder]
    exact hunparked prepared hawaited

/-- The landing of a commit without states moves the owner's generation and nothing else. -/
theorem synced_passive {channelId eventKey : String} {generation basis n : ℕ} (hv : v.Synced K)
    (hr : v.Reads o) (ho : v.Owed channelId eventKey generation basis none (.ok (.committed n)))
    (hsynced : (v.unpark channelId).Synced K) :
    (v.under ((o.unparked channelId).settleCommit channelId basis none (.ok (.committed n)))).Synced
      K := by
  have hgeneration : v.generation = o.stateGeneration := congrArg View.generation hr.symm
  obtain ⟨hnext, hle⟩ := hv.agrees.committed _ _ _ _ _ _ ho
  obtain ⟨g, hg, hgle⟩ := hv.agrees.tracked
  -- a commit of states that has landed since would work from the owner's generation
  have hbehind : ∀ other, v.Landed other → n ≤ g := by
    intro other hlanded
    have hne : other ≠ channelId := by
      rintro rfl
      obtain ⟨key, gen, basis', s, n', howed⟩ := hlanded
      have hentry := ho.awaited.symm.trans howed.awaited
      cases hentry
    have hlt := hv.agrees.alone other hlanded channelId eventKey generation basis none n ho hne
    obtain ⟨key, gen, basis', s, n', howed⟩ := hlanded
    obtain ⟨hstore, howner, -⟩ := hv.agrees.landed _ _ _ _ _ _ howed
    have hsucc := (hv.agrees.committed _ _ _ _ _ _ howed).1
    have hsame := hg.symm.trans howner
    cases hsame
    omega
  have hlanding : ∀ other, v.Landing other → g = v.store.generation := by
    intro other h
    have hcurrent := hg.symm.trans (hv.agrees.landing other h)
    cases hcurrent
    rfl
  have hmoved : ∀ g', g < g' → g' = n →
      View.Synced K { v.unpark channelId with generation := some g' } := by
    rintro g' hlt rfl
    refine synced_regenerate hsynced hle ?_ ?_
    · intro other h
      have hbelow := hbehind other (landed_of_unpark h)
      omega
    · rintro other ⟨d, hd, hchannel, hexpected, staged', hentry⟩
      have hcurrent := hlanding other ⟨d, hd, hchannel, hexpected, staged', (get_of_erase hentry).1⟩
      omega
  rw [hgeneration] at hg
  by_cases hbasis : g = basis
  · have hsettled : v.under ((o.unparked channelId).settleCommit channelId basis none
        (.ok (.committed n))) = { v.unpark channelId with generation := some n } := by
      unfold settleCommit
      dsimp only
      rw [if_pos ⟨hg.trans (congrArg some hbasis), hnext⟩, ← hr]
      rfl
    rw [hsettled]
    exact hmoved n (by omega) rfl
  · have hother : ¬ ((o.unparked channelId).stateGeneration = some basis ∧ n = basis + 1) := by
      rintro ⟨hsame, -⟩
      have hsame' := hg.symm.trans hsame
      cases hsame'
      exact hbasis rfl
    have hsettled : v.under ((o.unparked channelId).settleCommit channelId basis none
        (.ok (.committed n))) =
        { v.unpark channelId with generation := if g < n then some n else some g } := by
      unfold settleCommit
      dsimp only
      rw [if_neg hother]
      have hunparked : (o.unparked channelId).stateGeneration = some g := hg
      rw [hunparked, ← hr]
      simp only [Option.any_some, decide_eq_true_eq]
      rfl
    rw [hsettled]
    by_cases hlt : g < n
    · rw [if_pos hlt]
      exact hmoved n hlt rfl
    · rw [if_neg hlt, ← hg, ← hgeneration]
      exact hsynced

theorem synced_commitResult {channelId eventKey : String} {generation : ℕ}
    {result : Except String GuardedCommitOutcome} (hv : v.Synced K) (hr : v.Reads o)
    (hgenuine : ∀ basis staged, o.pendingInitialFees.get? channelId =
      some (.committing eventKey generation basis staged) →
        Genuine v channelId eventKey generation result) :
    (v.under (o.handleCommitResult channelId eventKey generation result)).Synced K := by
  have hpending : v.pending = o.pendingInitialFees := congrArg View.pending hr.symm
  have hgeneration : v.generation = o.stateGeneration := congrArg View.generation hr.symm
  obtain ⟨heq, -⟩ | ⟨basis, staged, hawaited, heq⟩ := handleCommitResult_cases o channelId
    eventKey generation result
  · rw [heq]
    have hsame : v.under o.conflicted = v := hr
    rw [hsame]
    exact hv
  rw [heq]
  obtain ⟨hgiven, hconflict⟩ := hgenuine basis staged hawaited
  have howed : v.Owed channelId eventKey generation basis staged result :=
    ⟨hpending ▸ hawaited, hgiven⟩
  have hexecuted := hv.identified.executed howed
  have hunder : v.unpark channelId = v.under (o.unparked channelId) := by
    rw [← hr]
    rfl
  -- a result other than the landing of states leaves the channel unlanded
  have hunlanded : (∀ s n, staged = some s → result ≠ .ok (.committed n)) →
      ¬ v.Landed channelId := by
    rintro hother ⟨key, gen, basis', s, n, howed'⟩
    have hentry := howed.awaited.symm.trans howed'.awaited
    cases hentry
    exact hother s n rfl (hv.identified.answeredOnce howed howed')
  rcases result with e | outcome
  · have hsynced := synced_unpark hv hexecuted (hunlanded fun s n _ h => by cases h)
    rw [hunder] at hsynced
    exact hsynced
  cases outcome with
  | generationConflict expected found =>
    have hsynced := synced_unpark hv hexecuted (hunlanded fun s n _ h => by cases h)
    have hle := hv.agrees.conflict _ _ _ _ _ _ _ howed
    have hsettled : v.under ((o.unparked channelId).settleCommit channelId basis staged
        (.ok (.generationConflict expected found))) =
        { v.unpark channelId with generation := some found } := by
      rw [← hr]
      rfl
    rw [hsettled]
    rcases hconflict expected found rfl with hcurrent | hquiet
    · rw [← hcurrent]
      exact hsynced
    · refine synced_regenerate hsynced hle (fun other h => (hquiet other).1 (landed_of_unpark h)) ?_
      rintro other ⟨d, hd, hchannel, hexpected, staged', hentry⟩
      exact absurd ⟨d, hd, hchannel, hexpected, staged', (get_of_erase hentry).1⟩ (hquiet other).2
  | committed n =>
    obtain ⟨hnext, hle⟩ := hv.agrees.committed _ _ _ _ _ _ howed
    cases staged with
    | some s =>
      obtain ⟨-, howner, -⟩ := hv.agrees.landed _ _ _ _ _ _ howed
      rw [hgeneration] at howner
      have hinstalled : v.under ((o.unparked channelId).settleCommit channelId basis (some s)
          (.ok (.committed n))) = v.install channelId s n := by
        unfold settleCommit
        dsimp only
        rw [if_pos ⟨howner, hnext⟩, ← hr]
        rfl
      rw [hinstalled]
      exact synced_install hv howed
    | none =>
      have hsynced := synced_unpark hv hexecuted (hunlanded fun s n hs => by cases hs)
      exact synced_passive hv hr howed hsynced

theorem replies_alone (halone : turn.between = []) {s : Store} {commit : FeeCycleCommit} :
    (turn.replies s).commitFeeCycle commit = s.commitReply turn.errorText turn.faults commit := by
  unfold StoreTurn.replies
  rw [halone]
  rfl

theorem committed_appends (halone : turn.between = []) {s : Store} {commit : FeeCycleCommit}
    {generation : ℕ}
    (hreply : (turn.replies s).commitFeeCycle commit = .ok generation) :
    Appends s (s.exec (.commitFeeCycle commit) turn.faults) commit ∧
      generation = (s.exec (.commitFeeCycle commit) turn.faults).generation := by
  have hsame := (replies_alone halone).symm.trans hreply
  obtain ⟨hok, hcommits⟩ | ⟨herror, -⟩ := Store.commit_step s turn.errorText turn.faults commit
  · have hgeneration := hok.symm.trans hsame
    cases hgeneration
    exact ⟨⟨hcommits⟩, (Store.generation_of_commits hcommits).symm⟩
  · cases herror.symm.trans hsame

theorem failed_exec (halone : turn.between = []) {s : Store} {commit : FeeCycleCommit} {e : String}
    (hreply : (turn.replies s).commitFeeCycle commit = .error e) :
    s.exec (.commitFeeCycle commit) turn.faults = s := by
  have hsame := (replies_alone halone).symm.trans hreply
  obtain ⟨hok, -⟩ | ⟨-, hkept⟩ := Store.commit_step s turn.errorText turn.faults commit
  · cases hok.symm.trans hsame
  · exact hkept

theorem synced_failedForward {signal : FailedForwardSignal} (hv : v.Synced K) (hr : v.Reads o)
    (halone : turn.between = [])
    (hs : NudgeStep K (turn.replies v.store) o signal h)
    (hlanded : (∃ commit, .commitFeeCycle commit ∈ h.2) → ∀ channelId, ¬ v.Landed channelId) :
    (v.absorb turn h).Synced K := by
  cases hs with
  | kept hn =>
    rw [absorb_noted hr hn]
    exact hv
  | failed q n commit e es hreply hes =>
    have hkept : v.absorb turn (o.noted q n, .commitFeeCycle commit :: es) = v := by
      unfold View.absorb
      rw [List.foldl_cons, List.filterMap_cons_none rfl, (inert_of_audit hes).dispatches]
      have happly : turn.apply v.store (.commitFeeCycle commit : OwnerEffect ι τ) = v.store :=
        failed_exec halone hreply
      rw [happly, (inert_of_audit hes).store, List.append_nil, List.append_nil]
      exact hr
    rw [hkept]
    exact hv
  | applied q coalesced implied feeState cycleState generation hready hstore hstage hcycle hreply =>
    obtain ⟨happends, hgeneration⟩ := committed_appends halone hreply
    have hcycle' : v.memory.cycleStates.get? signal.channelId = some cycleState := by
      rw [← hr]
      exact hcycle
    have hadvanced :
        v.absorb turn ((o.noted q o.persistenceFailures).installNudge signal feeState generation,
        [.commitFeeCycle (nudgeCommit K signal coalesced implied cycleState feeState)]) =
        v.advance ⟨v.memory.cycleStates, v.memory.feeStates.insert signal.channelId feeState⟩
          (v.store.exec
            (.commitFeeCycle (nudgeCommit K signal coalesced implied cycleState feeState))
            turn.faults) := by
      unfold View.absorb View.advance
      rw [← hgeneration, List.filterMap_cons_none rfl, List.filterMap_nil, List.append_nil,
        List.append_nil]
      have hmemory : v.memory = o.state := congrArg View.memory hr.symm
      rw [hmemory, ← hr]
      rfl
    rw [hadvanced]
    exact synced_nudge hv happends (hlanded ⟨_, List.mem_cons_self⟩) hcycle' rfl

end Messages

end OwnerStore
