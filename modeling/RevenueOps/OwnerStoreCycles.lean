import RevenueOps.OwnerStoreMessages

/-! The cycles of a hydrated owner on the view, run at once, put off, or resumed. -/
namespace OwnerStore

open FallibleState SqlTransaction FeeRunway FeeOwner FeeStore KeyedTable CycleOwner

variable {κ φ ι τ : Type}

section Cycles

variable {K : FeeKernel κ φ} {p : Pass κ φ ι} {v : View κ φ ι} {o : CycleOwner κ φ ι τ}
  {turn : StoreTurn} {prepared : PreparedCycle ι}

structure Hydrated (o : CycleOwner κ φ ι τ) : Prop where
  lifecycle : o.lifecycle = .seedOnce
  once : o.hydratedOnce = true

theorem hydrate_hydrated {r : StoreReplies} (ho : Hydrated o) :
    o.hydrate K p r = ((o, []), none) := by
  unfold CycleOwner.hydrate
  rw [ho.lifecycle]
  exact if_pos ho.once

inductive CycleStep (K : FeeKernel κ φ) (r : StoreReplies) (o : CycleOwner κ φ ι τ) :
    Handled κ φ ι τ → Prop where
  | skipped {h : Handled κ φ ι τ} (ho : Hydrated h.1)
      (hgeneration : h.1.stateGeneration = o.stateGeneration)
      (hmemory : ∀ channelId, memoryRow K h.1.state channelId = memoryRow K o.state channelId)
      (hinert : Inert h.2) : CycleStep K r o h
  | committed {h : Handled κ φ ι τ} (ho : Hydrated h.1) (commit : FeeCycleCommit) (generation : ℕ)
      (es fs : List (OwnerEffect ι τ)) (heffects : h.2 = es ++ .commitFeeCycle commit :: fs)
      (hes : Inert es) (hfs : Inert fs) (hreply : r.commitFeeCycle commit = .ok generation)
      (hgeneration : h.1.stateGeneration = some generation)
      (hwritten : ∀ channelId, memoryRow K h.1.state channelId = none →
        memoryRow K o.state channelId = none)
      (hrows : commit.stateRows = stateRows K h.1.state) : CycleStep K r o h

theorem cycleEvidence_ok {r : StoreReplies} {evidence : Evidence}
    (h : o.cycleEvidence p r prepared = .ok evidence) : p.evidence prepared = some evidence := by
  unfold cycleEvidence at h
  cases hcompetitors : resolveMinCompetitors prepared.minCompetitors with
  | none =>
    rw [hcompetitors] at h
    cases h
  | some n =>
    rw [hcompetitors] at h
    dsimp only at h
    split at h
    · cases h
    · cases hevidence : p.evidence prepared with
      | none =>
        rw [hevidence] at h
        cases h
      | some found =>
        rw [hevidence] at h
        cases h
        rfl

/-- The pass over the channels fails, or its commit does, or the commit holds every state left. -/
theorem decideAndCommit_cases {r : StoreReplies} (ho : Hydrated o) (prepared : PreparedCycle ι) :
    let run := o.decideAndCommit K p r prepared
    let state := o.state.write (p.runFeeCycle o.state prepared).2
    ((p.runFeeCycle o.state prepared).1 = none ∧ run.owner = { o with state := state } ∧
      run.effects = []) ∨
    (∃ commit e, r.commitFeeCycle commit = .error e ∧ run.effects = [.commitFeeCycle commit]) ∨
    ∃ commit generation es, r.commitFeeCycle commit = .ok generation ∧
      run.effects = .commitFeeCycle commit :: es ∧ Inert es ∧ Hydrated run.owner ∧
        run.owner.state = state ∧
      run.owner.stateGeneration = some generation ∧ commit.stateRows = stateRows K state := by
  intro run state
  have hrun : run = o.decideAndCommit K p r prepared := rfl
  unfold decideAndCommit at hrun
  dsimp only at hrun
  split at hrun
  · rename_i hpass
    exact .inl ⟨hpass, by rw [hrun], by rw [hrun]⟩
  right
  split at hrun
  · rename_i hlifecycle
    cases ho.lifecycle.symm.trans hlifecycle
  split at hrun
  · rename_i generation hreply
    right
    obtain ⟨retention, howner, haudit⟩ := scheduleRetentionSweep_spec (r := r)
      { o with
        state := state
        commitSeq := o.commitSeq + 1
        stateGeneration := some generation
        pendingSeed := none } p.now
    refine ⟨_, generation, _, hreply, by rw [hrun], inert_of_audit haudit, ?_, ?_, ?_, rfl⟩
    · rw [hrun]
      exact ⟨(congrArg CycleOwner.lifecycle howner).trans ho.lifecycle,
        (congrArg CycleOwner.hydratedOnce howner).trans ho.once⟩
    · rw [hrun]
      exact congrArg CycleOwner.state howner
    · rw [hrun]
      exact congrArg CycleOwner.stateGeneration howner
  · rename_i e hreply
    exact .inl ⟨_, e, hreply, by rw [hrun]⟩

/-- The pass over the channels and its commit, from the states that the policy watcher left. -/
theorem decideAndCommit_step {r : StoreReplies} {d : CycleOwner κ φ ι τ} (hd : Hydrated d)
    (hgeneration : d.stateGeneration = o.stateGeneration) (hwritten : Written o.state d.state)
    (hclean : (p.runFeeCycle d.state prepared).1 = none →
      ∀ channelId, memoryRow K (d.state.write (p.runFeeCycle d.state prepared).2) channelId =
        memoryRow K o.state channelId)
    (hok : ∀ commit, .commitFeeCycle commit ∈ (d.decideAndCommit K p r prepared).effects →
      ∃ generation, r.commitFeeCycle commit = .ok generation) :
    CycleStep K r o ((d.decideAndCommit K p r prepared).owner,
      (d.decideAndCommit K p r prepared).effects) := by
  obtain ⟨hpass, howner, heffects⟩ | ⟨commit, e, hreply, heffects⟩ |
    ⟨commit, generation, es, hreply, heffects, hes, hhydrated, hstate, hnew, hrows⟩ :=
      decideAndCommit_cases (K := K) (p := p) (r := r) hd prepared
  · refine .skipped ?_ ?_ ?_ ?_
    · rw [howner]
      exact ⟨hd.lifecycle, hd.once⟩
    · rw [howner]
      exact hgeneration
    · rw [howner]
      exact hclean hpass
    · rw [heffects]
      exact fun e he => by cases he
  · rw [heffects] at hok
    obtain ⟨generation, hgen⟩ := hok commit (List.mem_singleton_self _)
    cases hreply.symm.trans hgen
  · refine .committed hhydrated commit generation [] es heffects
      (fun e he => by cases he) hes hreply hnew ?_ ?_
    · intro channelId hnone
      dsimp only at hnone
      rw [hstate] at hnone
      exact memoryRow_written hwritten (memoryRow_write hnone)
    · dsimp only
      rw [hstate]
      exact hrows

theorem CycleStep.after {r : StoreReplies} {o' : CycleOwner κ φ ι τ}
    {es fs : List (OwnerEffect ι τ)}
    (h : CycleStep K r o (o', fs)) (hes : Inert es) : CycleStep K r o (o', es ++ fs) := by
  cases h with
  | skipped ho hgeneration hmemory hinert =>
      exact .skipped ho hgeneration hmemory (hes.append hinert)
  | committed ho commit generation es' fs' heffects hes' hfs hreply hgeneration hwritten hrows =>
    refine .committed ho commit generation (es ++ es') fs' ?_
      (hes.append hes') hfs hreply hgeneration
      hwritten hrows
    have heffects' : fs = es' ++ .commitFeeCycle commit :: fs' := heffects
    rw [heffects', List.append_assoc]

theorem runCycleBody_step {r : StoreReplies} (ho : Hydrated o) (hclean : FailsClean K p o prepared)
    (hok : ∀ commit, .commitFeeCycle commit ∈ ((drained p o).runCycleBody K p r prepared).effects →
      ∃ generation, r.commitFeeCycle commit = .ok generation) :
    CycleStep K r o (((drained p o).runCycleBody K p r prepared).owner,
      ((drained p o).runCycleBody K p r prepared).effects) := by
  unfold runCycleBody at hok ⊢
  cases hevidence : (drained p o).cycleEvidence p r prepared with
  | error outcome =>
      exact .skipped ⟨ho.lifecycle, ho.once⟩ rfl (fun _ => rfl) fun e he => by cases he
  | ok evidence =>
    simp only [hevidence] at hok ⊢
    obtain ⟨⟨q, noted, state, howner, hwritten⟩, haudit⟩ := detectPolicyChanges_watched (p := p)
      (drained p o) evidence [] evidence.peers
    have hstate :
        (detectPolicyChanges p evidence [] evidence.peers (drained p o)).1.state = state := by
      rw [howner]
    have hwatched := hclean evidence (cycleEvidence_ok hevidence)
    unfold watchedState at hwatched
    rw [hstate] at hwatched
    generalize detectPolicyChanges p evidence [] evidence.peers (drained p o) = watched
      at howner haudit hok ⊢
    have hhydrated : Hydrated watched.1 := by
      rw [howner]
      exact ⟨ho.lifecycle, ho.once⟩
    simp only [hydrate_hydrated hhydrated, List.append_nil] at hok ⊢
    refine CycleStep.after ?_ (inert_of_audit haudit)
    refine decideAndCommit_step hhydrated ?_ ?_ ?_ fun commit hcommit =>
      hok commit (List.mem_append_right _ hcommit)
    · rw [howner]
      rfl
    · rw [howner]
      exact hwritten
    · rw [howner]
      exact hwatched

theorem runCycle_step {r : StoreReplies} (ho : Hydrated o) (hclean : FailsClean K p o prepared)
    (hok : ∀ commit, .commitFeeCycle commit ∈ (o.runCycle K p r prepared).2.2 →
      ∃ generation, r.commitFeeCycle commit = .ok generation) :
    CycleStep K r o (o.runCycle K p r prepared).2 := by
  have hbody := runCycleBody_step (K := K) (r := r) ho hclean
    fun commit hcommit => hok commit (List.mem_cons_of_mem _ (List.mem_append_left _ hcommit))
  have hran : ∀ n, Inert [(.ran prepared n : OwnerEffect ι τ)] := fun n =>
    Inert.cons ⟨rfl, fun _ _ => rfl⟩ fun e he => by cases he
  unfold runCycle
  have hdrained : { o with
      triggerQueue := (o.triggerQueue.offer .fixedInterval p.now).2.drainAll
      appliedFailureNudgesPending := [] } = drained p o := rfl
  simp only [hdrained]
  generalize (drained p o).runCycleBody K p r prepared = run at hbody
  have htail : ∀ (o' : CycleOwner κ φ ι τ) tail n, (Hydrated run.owner → Hydrated o') →
      o'.stateGeneration = run.owner.stateGeneration → o'.state = run.owner.state → Audit tail →
        CycleStep K r o (o', .ran prepared n :: run.effects ++ tail) := by
    intro o' tail n hkept hgen hstate haudit
    have hstep : CycleStep K r o (o', run.effects ++ tail) := by
      cases hbody with
      | skipped ho hgeneration hmemory hinert =>
        refine .skipped (hkept ho) (hgen.trans hgeneration) ?_
          (hinert.append (inert_of_audit haudit))
        dsimp only at hmemory ⊢
        rw [hstate]
        exact hmemory
      | committed ho commit generation es fs heffects hes hfs hreply hgeneration hwritten hrows =>
        refine .committed (hkept ho) commit generation es (fs ++ tail) ?_ hes
          (hfs.append (inert_of_audit haudit))
          hreply (hgen.trans hgeneration) ?_ ?_
        · have heffects' : run.effects = es ++ .commitFeeCycle commit :: fs := heffects
          rw [heffects', List.append_assoc]
          rfl
        · dsimp only at hwritten ⊢
          rw [hstate]
          exact hwritten
        · dsimp only at hrows ⊢
          rw [hstate]
          exact hrows
    have hafter := CycleStep.after hstep (hran n)
    exact hafter
  exact htail _ _ _ (fun h => ⟨h.lifecycle, h.once⟩) rfl rfl recordTriggerReceipt_audit

theorem synced_remember (hv : v.Synced K) {memory : ControllerState κ φ}
    (hmemory : ∀ channelId, memoryRow K memory channelId = memoryRow K v.memory channelId) :
    View.Synced K { v with memory := memory } where
  identified :=
    ⟨hv.identified.keyed, hv.identified.injective, hv.identified.issued, hv.identified.ids,
    hv.identified.nodup, hv.identified.bounded, hv.identified.fresh, hv.identified.owned,
    hv.identified.inFlight⟩
  agrees :=
    { tracked := hv.agrees.tracked
      basis := hv.agrees.basis
      landing := hv.agrees.landing
      committed := fun c key gen basis staged n h =>
        hv.agrees.committed c key gen basis staged n ⟨h.awaited, h.given⟩
      conflict := fun c key gen basis staged expected found h =>
        hv.agrees.conflict c key gen basis staged expected found ⟨h.awaited, h.given⟩
      landed := fun c key gen basis staged n h =>
        hv.agrees.landed c key gen basis staged n ⟨h.awaited, h.given⟩
      overtaken := fun c ⟨key, gen, basis, staged, n, h⟩ =>
        hv.agrees.overtaken c ⟨key, gen, basis, staged, n, ⟨h.awaited, h.given⟩⟩
      alone := fun c ⟨key, gen, basis, staged, n, h⟩ other key' gen' basis' staged' n' h' =>
        hv.agrees.alone c ⟨key, gen, basis, staged, n,
          ⟨h.awaited, h.given⟩⟩ other key' gen' basis' staged' n'
          ⟨h'.awaited, h'.given⟩
      rows := fun c h => (hv.agrees.rows c fun ⟨key, gen, basis, staged, n, hl⟩ =>
        h ⟨key, gen, basis, staged, n, ⟨hl.awaited, hl.given⟩⟩).trans (hmemory c).symm }

theorem synced_cycleStep {h : Handled κ φ ι τ} (hv : v.Synced K) (hr : v.Reads o)
    (halone : turn.between = []) (hslots : SameSlots o h.1)
    (hempty : o.pendingInitialFees.isEmpty = true)
    (hs : CycleStep K (turn.replies v.store) o h) : (v.absorb turn h).Synced K := by
  have hmemory : v.memory = o.state := congrArg View.memory hr.symm
  have hpending : v.pending = o.pendingInitialFees := congrArg View.pending hr.symm
  have hlanded : ∀ other, ¬ v.Landed other := by
    rintro other ⟨key, gen, basis, staged, n, howed⟩
    have hnone := Dict.isEmpty_iff.mp hempty other
    rw [← hpending, howed.awaited] at hnone
    cases hnone
  have hunder : v.under h.1 =
      { v with memory := h.1.state, generation := h.1.stateGeneration } := by
    unfold View.under
    rw [hslots.pending, hslots.seq, ← hr]
    rfl
  cases hs with
  | skipped ho hgeneration hkept hinert =>
    have habsorbed : v.absorb turn h = { v with memory := h.1.state } := by
      refine (@absorb_inert κ φ ι τ v h.1 turn h.2 hinert).trans (hunder.trans ?_)
      rw [hgeneration, ← hr]
      rfl
    rw [habsorbed]
    exact synced_remember hv fun channelId => (hkept channelId).trans (by rw [hmemory])
  | committed ho commit generation es fs heffects hes hfs hreply hgeneration hwritten hrows =>
    obtain ⟨happends, hnext⟩ := committed_appends halone hreply
    have hstore :
        h.2.foldl turn.apply v.store = v.store.exec (.commitFeeCycle commit) turn.faults := by
      rw [heffects, List.foldl_append, hes.store, List.foldl_cons, hfs.store]
      rfl
    have hdispatches : h.2.filterMap dispatchOf = [] := by
      rw [heffects, List.filterMap_append, hes.dispatches,
        List.filterMap_cons_none rfl, hfs.dispatches]
      rfl
    have habsorbed : v.absorb turn h =
        v.advance h.1.state (v.store.exec (.commitFeeCycle commit) turn.faults) := by
      unfold View.absorb
      rw [hdispatches, hstore, hunder, List.append_nil, List.append_nil, hgeneration, hnext]
      rfl
    rw [habsorbed]
    refine synced_cycle hv happends hlanded ?_ hrows
    rw [hmemory]
    exact hwritten

theorem CycleStep.hydrated {r : StoreReplies} {h : Handled κ φ ι τ} (hs : CycleStep K r o h) :
    Hydrated h.1 := by
  cases hs with
  | skipped ho _ _ _ => exact ho
  | committed ho _ _ _ _ _ _ _ _ _ _ _ => exact ho

structure Kept (K : FeeKernel κ φ) (v : View κ φ ι) (turn : StoreTurn) (h : Handled κ φ ι τ) :
    Prop where
  hydrated : Hydrated h.1
  synced : (v.absorb turn h).Synced K

theorem kept_runCycle (hv : v.Synced K) (hr : v.Reads o) (ho : Hydrated o)
    (halone : turn.between = [])
    (hempty : o.pendingInitialFees.isEmpty = true) (hclean : FailsClean K p o prepared)
    (hok : ∀ commit, .commitFeeCycle commit ∈ (o.runCycle K p (turn.replies v.store) prepared).2.2 →
      ∃ generation, (turn.replies v.store).commitFeeCycle commit = .ok generation) :
    Kept K v turn (o.runCycle K p (turn.replies v.store) prepared).2 :=
  have hstep := runCycle_step ho hclean hok
  ⟨hstep.hydrated, synced_cycleStep hv hr halone (runCycle_slots _ _) hempty hstep⟩

theorem kept_inert {o' : CycleOwner κ φ ι τ} {es : List (OwnerEffect ι τ)} (hv : v.Synced K)
    (ho : Hydrated o') (hsame : v.under o' = v) (hes : Inert es) : Kept K v turn (o', es) := by
  refine ⟨ho, ?_⟩
  rw [absorb_inert hes, hsame]
  exact hv

theorem Kept.after {o' : CycleOwner κ φ ι τ} {es fs : List (OwnerEffect ι τ)}
    (h : Kept K v turn (o, es)) (hkept : Hydrated o → Hydrated o')
    (hsame : ∀ u : View κ φ ι, u.under o' = u.under o) (hfs : Inert fs) :
    Kept K v turn (o', es ++ fs) := by
  refine ⟨hkept h.hydrated, ?_⟩
  rw [absorb_append (o := o), absorb_inert hfs, hsame]
  exact h.synced

theorem inert_superseded {older newer : PreparedCycle ι} :
    Inert [(.superseded older newer : OwnerEffect ι τ)] :=
  Inert.cons ⟨rfl, fun _ _ => rfl⟩ fun e he => by cases he

theorem inert_answered (completion : Option τ) {reply : Except String FeeCycleCompletion} :
    Inert (completion.toList.map fun c => (.answered c reply : OwnerEffect ι τ)) := by
  intro e he
  obtain ⟨c, -, rfl⟩ := List.mem_map.mp he
  exact ⟨rfl, fun _ _ => rfl⟩

theorem kept_deferCycle (hv : v.Synced K) (hr : v.Reads o) (ho : Hydrated o) :
    Kept K v turn (o.deferCycle prepared) := by
  unfold deferCycle
  split
  · exact kept_inert hv ⟨ho.lifecycle, ho.once⟩ hr inert_superseded
  · exact kept_inert hv ⟨ho.lifecycle, ho.once⟩ hr fun e he => by cases he

theorem kept_runOrDeferCycle (hv : v.Synced K) (hr : v.Reads o) (ho : Hydrated o)
    (halone : turn.between = [])
    (hclean : o.pendingInitialFees.isEmpty = true → FailsClean K p o prepared)
    (hok : ∀ commit, .commitFeeCycle commit ∈
        (o.runOrDeferCycle K p (turn.replies v.store) prepared).2.2 →
      ∃ generation, (turn.replies v.store).commitFeeCycle commit = .ok generation) :
    Kept K v turn (o.runOrDeferCycle K p (turn.replies v.store) prepared).2 := by
  unfold runOrDeferCycle at hok ⊢
  by_cases hempty : o.pendingInitialFees.isEmpty = true
  · rw [if_pos hempty] at hok ⊢
    exact kept_runCycle hv hr ho halone hempty (hclean hempty) hok
  · rw [if_neg hempty]
    exact kept_deferCycle hv hr ho

theorem kept_runPrepared {completion : Option τ} (hv : v.Synced K) (hr : v.Reads o)
    (ho : Hydrated o)
    (halone : turn.between = [])
    (hclean : o.pendingInitialFees.isEmpty = true → FailsClean K p o prepared)
    (hok : ∀ commit, .commitFeeCycle commit ∈
        (o.handle K p (turn.replies v.store) (.runPrepared prepared completion)).2 →
      ∃ generation, (turn.replies v.store).commitFeeCycle commit = .ok generation) :
    Kept K v turn (o.handle K p (turn.replies v.store) (.runPrepared prepared completion)) := by
  cases completion with
  | none => exact kept_runOrDeferCycle hv hr ho halone hclean hok
  | some c =>
    simp only [CycleOwner.handle] at hok ⊢
    unfold runOrDeferCycleWithAck at hok ⊢
    by_cases hempty : o.pendingInitialFees.isEmpty = true
    · simp only [hempty, if_true, runOrDeferCycle] at hok ⊢
      have hrun := kept_runCycle hv hr ho halone hempty (hclean hempty) fun commit hcommit =>
        hok commit (List.mem_append_left _ hcommit)
      exact hrun.after (fun h => h) (fun _ => rfl) (inert_answered (some c))
    · have hfalse := Bool.eq_false_iff.mpr hempty
      simp only [hfalse, runOrDeferCycle, Bool.false_eq_true, if_false] at hok ⊢
      have hdefer : Kept K v turn
          (({ o with deferredCycleAck := none } : CycleOwner κ φ ι τ).deferCycle prepared) :=
        kept_deferCycle hv hr ⟨ho.lifecycle, ho.once⟩
      exact hdefer.after (fun h => ⟨h.lifecycle, h.once⟩) (fun _ => rfl)
        (inert_answered o.deferredCycleAck)

theorem kept_answerDeferred {h : Handled κ φ ι τ} {outcome : CycleOutcome} (hk : Kept K v turn h) :
    Kept K v turn (answerDeferred outcome h) := by
  unfold answerDeferred
  split
  · exact hk
  · exact Kept.after (o := h.1) hk (fun ho => ⟨ho.lifecycle, ho.once⟩) (fun _ => rfl)
      (inert_answered (some _))

theorem mem_answerDeferred {h : Handled κ φ ι τ} {outcome : CycleOutcome} {e : OwnerEffect ι τ}
    (he : e ∈ h.2) : e ∈ (answerDeferred outcome h).2 := by
  unfold answerDeferred
  split
  · exact he
  · exact List.mem_append_left _ he

theorem kept_resume (hv : v.Synced K) (hr : v.Reads o) (ho : Hydrated o)
    (halone : turn.between = [])
    (hclean : o.pendingInitialFees.isEmpty = true → ∀ prepared, o.deferredCycle = some prepared →
      FailsClean K p { o with deferredCycle := none } prepared)
    (hok : ∀ commit, .commitFeeCycle commit ∈ (o.resumeDeferredCycle K p (turn.replies v.store)).2 →
      ∃ generation, (turn.replies v.store).commitFeeCycle commit = .ok generation) :
    Kept K v turn (o.resumeDeferredCycle K p (turn.replies v.store)) := by
  unfold resumeDeferredCycle at hok ⊢
  by_cases hempty : o.pendingInitialFees.isEmpty = true
  · rw [if_pos hempty] at hok ⊢
    cases hdeferred : o.deferredCycle with
    | none => exact kept_inert hv ho hr fun e he => by cases he
    | some prepared =>
      simp only [hdeferred] at hok ⊢
      have hrun :
          Kept K v turn (({ o with deferredCycle := none } : CycleOwner κ φ ι τ).runCycle K p
          (turn.replies v.store) prepared).2 :=
        kept_runCycle hv hr ⟨ho.lifecycle, ho.once⟩ halone hempty (hclean hempty prepared hdeferred)
          fun commit hcommit => hok commit (mem_answerDeferred hcommit)
      exact kept_answerDeferred hrun
  · rw [if_neg hempty]
    exact kept_inert hv ho hr fun e he => by cases he

end Cycles

end OwnerStore
