import RevenueOps.OwnerStoreCycles

/-! Whole runs of the owner against its store. Where no commit of a new channel is overtaken between
its landing and its delivery, memory and store agree whenever nothing is in flight. -/
namespace OwnerStore

open FallibleState SqlTransaction FeeRunway FeeOwner FeeStore KeyedTable CycleOwner StateMachine

variable {κ φ ι τ : Type}

section Turns

variable {K : FeeKernel κ φ} {p : Pass κ φ ι} {v : View κ φ ι} {w : World κ φ ι τ}
  {o : CycleOwner κ φ ι τ} {turn : StoreTurn}

theorem noted_hydrated {h : Handled κ φ ι τ} (ho : Hydrated o) (hn : Noted o h) : Hydrated h.1 := by
  obtain ⟨q, failures, howner, -⟩ := hn
  rw [howner]
  exact ⟨ho.lifecycle, ho.once⟩

theorem kept_noted {h : Handled κ φ ι τ} (hv : v.Synced K) (hr : v.Reads o) (ho : Hydrated o)
    (hn : Noted o h) : Kept K v turn h := by
  refine ⟨noted_hydrated ho hn, ?_⟩
  rw [absorb_noted hr hn]
  exact hv

theorem settleCommit_hydrated {channelId : String} {basis : ℕ} {staged : Option (φ × κ)}
    {result : Except String GuardedCommitOutcome} (ho : Hydrated o) :
    Hydrated (o.settleCommit channelId basis staged result) := by
  unfold settleCommit
  rcases result with e | outcome
  · exact ⟨ho.lifecycle, ho.once⟩
  cases outcome with
  | generationConflict expected found => exact ⟨ho.lifecycle, ho.once⟩
  | committed n =>
    dsimp only
    split
    · cases staged <;> exact ⟨ho.lifecycle, ho.once⟩
    · exact ⟨ho.lifecycle, ho.once⟩

theorem kept_applyStoreResult {result : InitialFeeStoreResult} {r : StoreReplies} (hv : v.Synced K)
    (hr : v.Reads o) (ho : Hydrated o)
    (hgenuine : ∀ channelId eventKey generation outcome basis staged,
      result = .commit channelId eventKey generation outcome →
        o.pendingInitialFees.get? channelId = some (.committing eventKey generation basis staged) →
        Genuine v channelId eventKey generation outcome) :
    Kept K v turn (o.applyStoreResult K p r result) := by
  unfold applyStoreResult
  split
  · exact kept_inert hv ho hr fun e he => by cases he
  · exact kept_inert hv ⟨ho.lifecycle, ho.once⟩ hr fun e he => by cases he
  · rename_i channelId eventKey generation outcome
    have hstep : IdempotencyStep K p o channelId eventKey generation
        (o.handleIdempotencyResult K p r channelId eventKey generation outcome) :=
      handleIdempotencyResult_step outcome
    refine ⟨?_, synced_idempotency hv hr hstep⟩
    generalize o.handleIdempotencyResult K p r channelId eventKey generation outcome = h at hstep
    cases hstep with
    | conflict => exact ⟨ho.lifecycle, ho.once⟩
    | settled prepared hawaited hn =>
      have hunparked : Hydrated (o.unparked channelId) := ⟨ho.lifecycle, ho.once⟩
      exact noted_hydrated hunparked hn
    | dispatched => exact ⟨ho.lifecycle, ho.once⟩
    | unlaunched =>
      constructor
      · simpa only [failedPersistence, unparked, CycleOwner.awaiting] using ho.lifecycle
      · simpa only [failedPersistence, unparked, CycleOwner.awaiting] using ho.once
  · rename_i channelId eventKey generation outcome
    refine ⟨?_, ?_⟩
    · obtain ⟨heq, -⟩ | ⟨basis, staged, -, heq⟩ := handleCommitResult_cases o channelId
        eventKey generation outcome
      · rw [heq]
        exact ⟨ho.lifecycle, ho.once⟩
      · rw [heq]
        exact settleCommit_hydrated ⟨ho.lifecycle, ho.once⟩
    · rw [absorb_inert (fun e he => by cases he)]
      exact synced_commitResult hv hr fun basis staged hawaited =>
        hgenuine channelId eventKey generation outcome basis staged rfl hawaited
  · rename_i outcome
    cases outcome with
    | ok report => exact kept_inert hv ⟨ho.lifecycle, ho.once⟩ hr fun e he => by cases he
    | error e => exact kept_inert hv ⟨ho.lifecycle, ho.once⟩ hr fun e he => by cases he

theorem kept_newChannel {prepared : PreparedInitialFee ι} {h : Handled κ φ ι τ} (hv : v.Synced K)
    (hr : v.Reads o) (ho : Hydrated o) (hs : NewChannelStep o prepared h) : Kept K v turn h := by
  refine ⟨?_, synced_newChannel hv hr hs⟩
  cases hs with
  | kept hn => exact noted_hydrated ho hn
  | dispatched => exact ⟨ho.lifecycle, ho.once⟩
  | unlaunched hready hfree hn =>
    have hunparked : Hydrated ((o.checking prepared).unparked prepared.channelId) :=
      ⟨ho.lifecycle, ho.once⟩
    exact noted_hydrated hunparked hn

theorem kept_failedForward {signal : FailedForwardSignal} {h : Handled κ φ ι τ} (hv : v.Synced K)
    (hr : v.Reads o) (ho : Hydrated o) (halone : turn.between = [])
    (hs : NudgeStep K (turn.replies v.store) o signal h)
    (hlanded : (∃ commit, .commitFeeCycle commit ∈ h.2) → ∀ channelId, ¬ v.Landed channelId) :
    Kept K v turn h := by
  refine ⟨?_, synced_failedForward hv hr halone hs hlanded⟩
  cases hs with
  | kept hn => exact noted_hydrated ho hn
  | failed => exact ⟨ho.lifecycle, ho.once⟩
  | applied => exact ⟨ho.lifecycle, ho.once⟩

theorem applyStoreResult_store {result : InitialFeeStoreResult} {r : StoreReplies} {s : Store} :
    (o.applyStoreResult K p r result).2.foldl turn.apply s = s := by
  unfold applyStoreResult
  split
  · rfl
  · rfl
  · rename_i channelId eventKey generation outcome
    have hstep : IdempotencyStep K p o channelId eventKey generation
        (o.handleIdempotencyResult K p r channelId eventKey generation outcome) :=
      handleIdempotencyResult_step outcome
    generalize o.handleIdempotencyResult K p r channelId eventKey generation outcome = h at hstep
    cases hstep with
    | conflict => rfl
    | settled prepared hawaited hn =>
      obtain ⟨q, failures, -, haudit⟩ := hn
      exact (inert_of_audit haudit).store
    | dispatched => rfl
    | unlaunched => rfl
  · rfl
  · rfl

theorem kept_handle {msg : CycleMsg ι τ} (hv : w.view.Synced K) (ho : Hydrated w.owner)
    (he : Enabled K w msg p turn) (hc : Careful K w msg p turn) :
    Kept K w.view turn (w.owner.handle K p (turn.replies w.store) msg) := by
  have hr : w.view.Reads w.owner := rfl
  have halone := he.alone
  cases msg with
  | runPrepared prepared completion =>
    refine kept_runPrepared hv hr ho halone (fun hempty => ?_) he.succeeds
    exact hc.clean w.owner prepared (if_pos hempty)
  | newChannel prepared => exact kept_newChannel hv hr ho (handleNewChannel_step prepared)
  | newChannelRefused peerId channelHint eventTs reason =>
    exact kept_noted hv hr ho handleNewChannelRefused_noted
  | failedForward signal =>
    exact kept_failedForward hv hr ho halone (handleFailedForward_step signal) (hc.nudge signal rfl)
  | initialFeeStoreResult result =>
    have happlied :
        Kept K w.view turn (w.owner.applyStoreResult K p (turn.replies w.store) result) :=
      kept_applyStoreResult hv hr ho
        fun channelId eventKey generation outcome basis staged hresult =>
        hc.genuine channelId eventKey generation outcome basis staged (congrArg _ hresult)
    have hclean := hc.clean
    have hsucceeds := he.succeeds
    have hstore :
        (w.view.absorb turn (w.owner.applyStoreResult K p (turn.replies w.store) result)).store =
        w.store := applyStoreResult_store
    simp only [CycleOwner.handle, handleInitialFeeStoreResult] at hsucceeds ⊢
    unfold World.cycleOf at hclean
    dsimp only at hclean
    generalize w.owner.applyStoreResult K p (turn.replies w.store) result = applied
      at happlied hclean hsucceeds hstore ⊢
    have hresumed : Kept K (w.view.absorb turn applied) turn
        (applied.1.resumeDeferredCycle K p (turn.replies w.store)) := by
      rw [← hstore]
      refine kept_resume happlied.synced rfl happlied.hydrated halone ?_ ?_
      · intro hempty prepared hdeferred
        exact hclean _ prepared (by rw [if_pos hempty, hdeferred]; rfl)
      · rw [hstore]
        exact fun commit hcommit => hsucceeds commit (List.mem_append_right _ hcommit)
    refine ⟨hresumed.hydrated, ?_⟩
    rw [absorb_append (o := applied.1)]
    exact hresumed.synced
  | policyChanged peerId channelStatesRead => cases he.interleaved
  | vegasSpikeCheck => cases he.interleaved
  | wakeAll => cases he.interleaved
  | forwardEvent channelId => cases he.interleaved

theorem synced_committed {i : ℕ} {d : Dispatch} {text : String} {faults : List (Option Fault)}
    (hw : w.view.Synced K) (hd : w.commits[i]? = some d) :
    (w.committed i d text faults).view.Synced K := by
  have hview : (w.committed i d text faults).view = w.view.execute i d
      (w.store.exec (.commitFeeCycleGuarded d.commit d.expectedPriorGeneration) faults)
      (w.store.guardedReply text faults d.commit d.expectedPriorGeneration) := rfl
  rw [hview]
  obtain ⟨hreply, hexpected, hcommits⟩ | ⟨hreply, hkept⟩ | ⟨hreply, hkept⟩ := Store.guarded_step
    w.store text faults d.commit d.expectedPriorGeneration
  · rw [hreply]
    exact synced_execute_committed hw hd hexpected ⟨hcommits⟩
  · rw [hreply, hkept]
    refine synced_execute_refused hw hd (fun n h => by cases h) fun expected found h => ?_
    cases h
    exact le_refl _
  · rw [hreply, hkept]
    exact synced_execute_refused hw hd (fun n h => by cases h) fun expected found h => by cases h

theorem synced_checked {i : ℕ} {c : Check} (hw : w.view.Synced K) :
    (w.checked i c).view.Synced K := by
  have howed : ∀ {channelId eventKey generation basis staged result},
      (w.checked i c).view.Owed channelId eventKey generation basis staged result →
        w.view.Owed channelId eventKey generation basis staged result := by
    intro channelId eventKey generation basis staged result h
    refine ⟨h.awaited, ?_⟩
    rcases List.mem_append.mp h.given with hgiven | hgiven
    · exact hgiven
    · cases List.mem_singleton.mp hgiven
  have hlanded : ∀ {other}, (w.checked i c).view.Landed other → w.view.Landed other := by
    rintro other ⟨key, gen, basis, staged, n, h⟩
    exact ⟨key, gen, basis, staged, n, howed h⟩
  have hids : (w.checked i c).view.results.filterMap commitId =
      w.view.results.filterMap commitId := by
    unfold World.checked World.view
    rw [List.filterMap_append]
    exact List.append_nil _
  refine ⟨⟨hw.identified.keyed, hw.identified.injective, hw.identified.issued, ?_,
    hw.identified.nodup,
    hw.identified.bounded, hw.identified.fresh, hw.identified.owned, hw.identified.inFlight⟩, ?_⟩
  · rw [hids]
    exact hw.identified.ids
  have ha := hw.agrees
  constructor
  case tracked => exact ha.tracked
  case basis => exact ha.basis
  case landing => exact ha.landing
  case committed =>
    intro other key gen basis staged n h
    exact ha.committed other key gen basis staged n (howed h)
  case conflict =>
    intro other key gen basis staged expected found h
    exact ha.conflict other key gen basis staged expected found (howed h)
  case landed =>
    intro other key gen basis staged n h
    exact ha.landed other key gen basis staged n (howed h)
  case overtaken => exact fun other h => ha.overtaken other (hlanded h)
  case alone =>
    intro other h c' key gen basis staged n ho
    exact ha.alone other (hlanded h) c' key gen basis staged n (howed ho)
  case rows =>
    intro other h
    refine ha.rows other fun hl => h ?_
    obtain ⟨key, gen, basis, staged, n, ho⟩ := hl
    exact ⟨key, gen, basis, staged, n, ⟨ho.awaited, List.mem_append_left _ ho.given⟩⟩

/-- What became of a handled result: memory stayed, and it was not the landing of awaited states; or
it was the store's own answer to a dispatched commit, whose states went into memory. -/
inductive InstallFate (K : FeeKernel κ φ) (dispatched : List Dispatch)
    (results : List InitialFeeStoreResult)
    (rec : ResultRecord κ φ ι τ) : Prop where
  | kept (hstate : rec.after.state = rec.before.state)
      (hother : ∀ channelId eventKey generation basis staged n,
        rec.before.pendingInitialFees.get? channelId =
          some (.committing eventKey generation basis (some staged)) →
        rec.result ≠ .commit channelId eventKey generation (.ok (.committed n)))
  | installed (d : Dispatch) (staged : φ × κ) (hd : d ∈ dispatched) (hgiven : rec.result ∈ results)
      (hresult : rec.result = .commit d.channelId d.eventKey d.generation
        (.ok (.committed (d.expectedPriorGeneration + 1))))
      (hrows : d.commit.stateRows = [stateRow K d.channelId staged])
      (hawaited : rec.before.pendingInitialFees.get? d.channelId =
        some (.committing d.eventKey d.generation d.expectedPriorGeneration (some staged)))
      (hstate : rec.after.state = ⟨rec.before.state.cycleStates.insert d.channelId staged.2,
        rec.before.state.feeStates.insert d.channelId staged.1⟩)

theorem InstallFate.mono {dispatched dispatched' : List Dispatch}
    {results results' : List InitialFeeStoreResult} {rec : ResultRecord κ φ ι τ}
    (hd : dispatched ⊆ dispatched') (hresults : results ⊆ results')
    (h : InstallFate K dispatched results rec) : InstallFate K dispatched' results' rec := by
  cases h with
  | kept hstate hother => exact .kept hstate hother
  | installed d staged hmem hgiven hresult hrows hawaited hstate =>
    exact .installed d staged (hd hmem) (hresults hgiven) hresult hrows hawaited hstate

theorem result_fate {result : InitialFeeStoreResult} {r : StoreReplies} (hw : w.view.Synced K)
    (hgenuine : ∀ channelId eventKey generation outcome basis staged,
      result = .commit channelId eventKey generation outcome →
        w.owner.pendingInitialFees.get? channelId =
          some (.committing eventKey generation basis staged) →
        Genuine w.view channelId eventKey generation outcome) :
    InstallFate K w.dispatched w.results
      ⟨result, w.owner, (w.owner.applyStoreResult K p r result).1⟩ := by
  cases result with
  | receipt context outcome =>
    refine .kept ?_ fun _ _ _ _ _ _ _ h => by cases h
    cases outcome <;> rfl
  | retention outcome =>
    refine .kept ?_ fun _ _ _ _ _ _ _ h => by cases h
    cases outcome <;> rfl
  | idempotency channelId eventKey generation outcome =>
    refine .kept ?_ fun _ _ _ _ _ _ _ h => by cases h
    have hstep : IdempotencyStep K p w.owner channelId eventKey generation
        (w.owner.handleIdempotencyResult K p r channelId eventKey generation outcome) :=
      handleIdempotencyResult_step outcome
    have hsame :
        w.owner.applyStoreResult K p r (.idempotency channelId eventKey generation outcome) =
        w.owner.handleIdempotencyResult K p r channelId eventKey generation outcome := rfl
    rw [hsame]
    generalize w.owner.handleIdempotencyResult K p r channelId eventKey generation outcome =
      h at hstep
    cases hstep with
    | conflict => rfl
    | settled prepared hawaited hn =>
      obtain ⟨q, failures, howner, -⟩ := hn
      dsimp only
      rw [howner]
      rfl
    | dispatched => rfl
    | unlaunched => simp only [failedPersistence, unparked, CycleOwner.awaiting]
  | commit channelId eventKey generation outcome =>
    have happlied :
        (w.owner.applyStoreResult K p r (.commit channelId eventKey generation outcome)).1 =
        w.owner.handleCommitResult channelId eventKey generation outcome := rfl
    rw [happlied]
    obtain ⟨heq, hnone⟩ | ⟨basis, staged, hawaited, heq⟩ := handleCommitResult_cases w.owner
      channelId eventKey generation outcome
    · rw [heq]
      refine .kept rfl ?_
      intro c key gen basis staged n hentry h
      cases h
      exact hnone basis (some staged) hentry
    rw [heq]
    have hgiven := (hgenuine channelId eventKey generation outcome basis staged rfl hawaited).given
    have howed : w.view.Owed channelId eventKey generation basis staged outcome :=
      ⟨hawaited, hgiven⟩
    rcases outcome with e | outcome
    · exact .kept rfl fun _ _ _ _ _ _ _ h => by cases h
    cases outcome with
    | generationConflict expected found => exact .kept rfl fun _ _ _ _ _ _ _ h => by cases h
    | committed n =>
      cases staged with
      | none =>
        refine .kept ?_ ?_
        · unfold settleCommit
          dsimp only
          split <;> rfl
        · intro c key gen basis' staged n' hentry h
          cases h
          cases hawaited.symm.trans hentry
      | some s =>
        obtain ⟨hnext, -⟩ := hw.agrees.committed _ _ _ _ _ _ howed
        obtain ⟨-, howner, -⟩ := hw.agrees.landed _ _ _ _ _ _ howed
        obtain ⟨d, hd, hcarries⟩ :=
          hw.identified.owned channelId eventKey generation basis (some s) hawaited
        obtain ⟨rfl, rfl, rfl, rfl, hrows⟩ := hcarries
        subst hnext
        refine .installed d s hd hgiven rfl hrows hawaited ?_
        have howner' :
            (w.owner.unparked d.channelId).stateGeneration = some d.expectedPriorGeneration :=
          howner
        unfold settleCommit
        dsimp only
        rw [if_pos ⟨howner', rfl⟩]
        rfl

structure Sound (K : FeeKernel κ φ) (w : World κ φ ι τ) : Prop where
  hydrated : Hydrated w.owner
  synced : w.view.Synced K
  fates : ∀ rec ∈ w.applied, InstallFate K w.dispatched w.results rec

theorem sound_message {msg : CycleMsg ι τ} (hw : Sound K w) (he : Enabled K w msg p turn)
    (hc : Careful K w msg p turn) : Sound K (w.handled K msg p turn) := by
  have hkept := kept_handle hw.synced hw.hydrated he hc
  refine ⟨hkept.hydrated, ?_, ?_⟩
  · rw [handled_view he.alone]
    exact hkept.synced
  · intro rec hrec
    have hmono : ∀ {rec : ResultRecord κ φ ι τ}, InstallFate K w.dispatched w.results rec →
        InstallFate K (w.handled K msg p turn).dispatched (w.handled K msg p turn).results rec :=
      InstallFate.mono (List.subset_append_left _ _) (List.Subset.refl _)
    rcases List.mem_append.mp hrec with hrec | hrec
    · exact hmono (hw.fates rec hrec)
    · cases msg with
      | initialFeeStoreResult result =>
        cases List.mem_singleton.mp hrec
        exact hmono
          (result_fate hw.synced fun channelId eventKey generation outcome basis staged hresult =>
          hc.genuine channelId eventKey generation outcome basis staged (congrArg _ hresult))
      | _ => cases hrec

theorem sound_next {e : Event κ φ ι τ} (hw : Sound K w) (he : (machine K).Enabled w e)
    (hc : ∀ msg pass turn, e = .message msg pass turn → Careful K w msg pass turn) :
    Sound K (next K w e) := by
  cases e with
  | message msg pass turn => exact sound_message hw (he msg pass turn rfl) (hc msg pass turn rfl)
  | executeCheck i =>
    unfold next
    dsimp only
    split
    · refine ⟨hw.hydrated, synced_checked hw.synced, fun rec hrec => ?_⟩
      exact (hw.fates rec hrec).mono (List.Subset.refl _) (List.subset_append_left _ _)
    · exact hw
  | executeCommit i text faults =>
    unfold next
    dsimp only
    split
    · rename_i d hd
      refine ⟨hw.hydrated, synced_committed hw.synced hd, fun rec hrec => ?_⟩
      exact (hw.fates rec hrec).mono (List.Subset.refl _) (List.subset_append_left _ _)
    · exact hw

/-- An owner after its bootstrap, over a store that holds what it has in memory. -/
structure Booted (K : FeeKernel κ φ) (w : World κ φ ι τ) : Prop where
  lifecycle : w.owner.lifecycle = .seedOnce
  ready : w.owner.bootstrapState = .ready
  idle : w.owner.pendingInitialFees.isEmpty = true
  noCommits : w.commits = []
  noDispatches : w.dispatched = []
  noResults : w.results = []
  noApplied : w.applied = []
  generation : w.owner.stateGeneration = some w.store.generation
  rows : ∀ channelId, w.store.row channelId = memoryRow K w.owner.state channelId

theorem hydrated_of_ready (hlifecycle : o.lifecycle = .seedOnce)
    (hready : o.bootstrapState = .ready) :
    Hydrated o := by
  refine ⟨hlifecycle, ?_⟩
  by_contra hnot
  unfold bootstrapState at hready
  rw [hlifecycle] at hready
  have honce : (!o.hydratedOnce) = true := by simpa using hnot
  by_cases hrefused : o.seedRefused = true
  · simp [hrefused] at hready
  · simp [hrefused, honce] at hready

theorem sound_of_booted (hw : Booted K w) : Sound K w := by
  have hidle : ∀ channelId, w.view.pending.get? channelId = none := Dict.isEmpty_iff.mp hw.idle
  have howed : ∀ {channelId eventKey generation basis staged result},
      ¬ w.view.Owed channelId eventKey generation basis staged result := by
    intro channelId eventKey generation basis staged result h
    cases (hidle channelId).symm.trans h.awaited
  have hnot : ∀ channelId, ¬ w.view.Landed channelId := by
    rintro channelId ⟨key, gen, basis, staged, n, h⟩
    exact howed h
  have hcommits : w.view.commits = [] := hw.noCommits
  have hdispatched : w.view.dispatched = [] := hw.noDispatches
  have hresults : w.view.results = [] := hw.noResults
  refine ⟨hydrated_of_ready hw.lifecycle hw.ready, ⟨?_, ?_⟩, ?_⟩
  · constructor
    case keyed => exact fun c _ _ _ h => by cases (hidle c).symm.trans h
    case injective => exact fun c _ _ _ h => by cases (hidle c).symm.trans h
    case issued => exact fun c _ h => by cases (hidle c).symm.trans h
    case ids => simp [hcommits, hdispatched, hresults]
    case nodup => simp [hdispatched]
    case bounded => simp [hdispatched]
    case fresh => exact fun c _ _ _ h => by cases (hidle c).symm.trans h
    case owned => exact fun c _ _ _ _ h => by cases (hidle c).symm.trans h
    case inFlight => simp [hcommits]
  · constructor
    case tracked => exact ⟨_, hw.generation, le_refl _⟩
    case basis => simp [hcommits]
    case landing => exact fun _ _ => hw.generation
    case committed => exact fun _ _ _ _ _ _ h => absurd h howed
    case conflict => exact fun _ _ _ _ _ _ _ h => absurd h howed
    case landed => exact fun _ _ _ _ _ _ h => absurd h howed
    case overtaken => exact fun c h => absurd h (hnot c)
    case alone => exact fun c h => absurd h (hnot c)
    case rows => exact fun c _ => hw.rows c
  · rw [hw.noApplied]
    exact fun rec hrec => by cases hrec

/-- In every run of careful steps: staged states enter memory with the store's own answer to their
commit, and with every such answer; no two dispatches share an identity; the owner is never ahead of
the store; and with no new channel in flight each row is the envelope of the states in memory. -/
theorem memory_equals_store (K : FeeKernel κ φ) (w : World κ φ ι τ) (es : List (Event κ φ ι τ))
    (hboot : Booted K w)
    (hcareful : (machine K).Follows
      (fun w e => ∀ msg pass turn, e = .message msg pass turn → Careful K w msg pass turn) w es) :
    let u := (machine K).run w es
    (∀ rec ∈ u.applied, InstallFate K u.dispatched u.results rec) ∧
      (u.dispatched.map Dispatch.generation).Nodup ∧
      (∃ generation, u.owner.stateGeneration = some generation ∧ generation ≤ u.store.generation) ∧
      (u.owner.pendingInitialFees.isEmpty = true →
        ∀ channelId, u.store.row channelId = memoryRow K u.owner.state channelId) := by
  intro u
  have hu : Sound K u :=
    hcareful.invariant (sound_of_booted hboot) fun _ _ ht he hc => sound_next ht he hc
  refine ⟨hu.fates, hu.synced.identified.nodup, hu.synced.agrees.tracked,
    fun hempty channelId => ?_⟩
  refine hu.synced.agrees.rows channelId ?_
  rintro ⟨key, gen, basis, staged, n, howed⟩
  cases (Dict.isEmpty_iff.mp hempty channelId).symm.trans howed.awaited

end Turns

section Example

def admittingPass : Pass ℤ (ℤ × ℤ) Unit :=
  { quietPass with
    decideInitialFee := fun _ _ _ => ⟨some (200, 0), some 10, none, none, .passive, "initial"⟩ }

def freshWorld : World ℤ (ℤ × ℤ) Unit Unit :=
  ⟨.new .seedOnce true true, .virgin, [], [], [], [], []⟩

def bootedWorld : World ℤ (ℤ × ℤ) Unit Unit :=
  freshWorld.handled sampleKernel (.runPrepared cyclePrepared none) admittingPass quietTurn

theorem rows_of_first_commit {κ φ : Type} {K : FeeKernel κ φ} {s : ControllerState κ φ} {t : Store}
    {commit : FeeCycleCommit} (ht : Appends .virgin t commit)
    (hrows : commit.stateRows = stateRows K s)
    (channelId : String) : t.row channelId = memoryRow K s channelId := by
  rw [ht.row, lastRow_stateRows hrows]
  exact Option.or_none

theorem bootedWorld_booted : Booted sampleKernel bootedWorld where
  lifecycle := rfl
  ready := rfl
  idle := rfl
  noCommits := rfl
  noDispatches := rfl
  noResults := rfl
  noApplied := rfl
  generation := rfl
  rows := rows_of_first_commit ⟨rfl⟩ rfl

def secondChannel : PreparedInitialFee Unit := ⟨"2x1x1", 20, "new:2x1x1", ()⟩

def checkAnswer : InitialFeeStoreResult := .idempotency "2x1x1" "new:2x1x1" 1 (.ok (false, 1))

def commitAnswer : InitialFeeStoreResult := .commit "2x1x1" "new:2x1x1" 1 (.ok (.committed 2))

def failedForwardSignal : FailedForwardSignal := ⟨"1x1x1", 1000, some 4108, none, 5000⟩

def sendTo (msg : CycleMsg Unit Unit) : Event ℤ (ℤ × ℤ) Unit Unit :=
  .message msg admittingPass quietTurn

def landing : List (Event ℤ (ℤ × ℤ) Unit Unit) :=
  [sendTo (.newChannel secondChannel), .executeCheck 0, sendTo (.initialFeeStoreResult checkAnswer),
   .executeCommit 0 "store failed" []]

def delivered : List (Event ℤ (ℤ × ℤ) Unit Unit) :=
  landing ++ [sendTo (.initialFeeStoreResult commitAnswer),
    sendTo (.failedForward failedForwardSignal)]

def overtaken : List (Event ℤ (ℤ × ℤ) Unit Unit) :=
  landing ++ [sendTo (.failedForward failedForwardSignal),
    sendTo (.initialFeeStoreResult commitAnswer)]

variable {w : World ℤ (ℤ × ℤ) Unit Unit} {msg : CycleMsg Unit Unit}

def effectsOf (w : World ℤ (ℤ × ℤ) Unit Unit) (msg : CycleMsg Unit Unit) :
    List (OwnerEffect Unit Unit) :=
  (w.owner.handle sampleKernel admittingPass (quietTurn.replies w.store) msg).2

theorem enabled_silent (hmsg : interleaved msg = true)
    (hsilent : (effectsOf w msg).all (fun | .commitFeeCycle _ => false | _ => true) = true) :
    (machine sampleKernel).Enabled w (sendTo msg) := by
  intro msg' pass turn h
  cases h
  refine ⟨hmsg, rfl, fun commit hcommit => ?_⟩
  have hfalse := List.all_eq_true.mp hsilent _ hcommit
  cases hfalse

theorem enabled_nudge {commit : FeeCycleCommit} {generation : ℕ}
    (heffects : effectsOf w (.failedForward failedForwardSignal) = [.commitFeeCycle commit])
    (hreply : (quietTurn.replies w.store).commitFeeCycle commit = .ok generation) :
    (machine sampleKernel).Enabled w (sendTo (.failedForward failedForwardSignal)) := by
  intro msg' pass turn h
  cases h
  refine ⟨rfl, rfl, fun commit' hcommit => ?_⟩
  have hmem :
      OwnerEffect.commitFeeCycle commit' ∈ effectsOf w (.failedForward failedForwardSignal) :=
        hcommit
  rw [heffects] at hmem
  cases List.mem_singleton.mp hmem
  exact ⟨generation, hreply⟩

theorem enabled_check {i : ℕ} : (machine sampleKernel).Enabled w (.executeCheck i) :=
  fun _ _ _ h => by cases h

theorem enabled_commit {i : ℕ} {text : String} {faults : List (Option Fault)} :
    (machine sampleKernel).Enabled w (.executeCommit i text faults) := fun _ _ _ h => by cases h

def CarefulEvent (w : World ℤ (ℤ × ℤ) Unit Unit) (e : Event ℤ (ℤ × ℤ) Unit Unit) : Prop :=
  ∀ msg pass turn, e = .message msg pass turn → Careful sampleKernel w msg pass turn

theorem landing_careful : (machine sampleKernel).Follows CarefulEvent bootedWorld landing := by
  refine ⟨enabled_silent rfl rfl, ?_, enabled_check, ?_, enabled_silent rfl rfl, ?_,
    enabled_commit, ?_, trivial⟩
  · intro msg pass turn h
    cases h
    exact ⟨fun _ h => (by cases h), fun _ _ _ _ _ _ h => (by cases h), fun _ _ h => (by cases h)⟩
  · exact fun _ _ _ h => by cases h
  · intro msg pass turn h
    cases h
    exact ⟨fun _ h => (by cases h), fun _ _ _ _ _ _ h => (by cases h), fun _ _ h => (by cases h)⟩
  · exact fun _ _ _ h => by cases h

theorem delivered_run_agrees :
    let u := (machine sampleKernel).run bootedWorld delivered
    u.owner.stateGeneration = some 3 ∧ u.dispatched.length = 1 ∧
      ∀ channelId, u.store.row channelId = memoryRow sampleKernel u.owner.state channelId := by
  intro u
  have hcareful : (machine sampleKernel).Follows
      (fun w e => ∀ msg pass turn, e = .message msg pass turn →
        Careful sampleKernel w msg pass turn)
      bootedWorld delivered := by
    refine Machine.follows_append.mpr ⟨landing_careful, enabled_silent rfl rfl, ?_,
      enabled_nudge rfl rfl, ?_,
      trivial⟩
    · intro msg pass turn h
      cases h
      refine ⟨fun _ h => (by cases h), ?_, fun _ _ h => (by cases h)⟩
      intro channelId eventKey generation result basis staged h hawaited
      cases h
      exact ⟨List.mem_cons_of_mem _ List.mem_cons_self, fun _ _ h => by cases h⟩
    · intro msg pass turn h
      cases h
      refine ⟨fun _ _ _ => ?_, fun _ _ _ _ _ _ h => (by cases h), fun _ _ h => (by cases h)⟩
      rintro channelId ⟨key, gen, basis, staged, n, howed⟩
      cases howed.awaited
  exact ⟨rfl, rfl,
    (memory_equals_store sampleKernel bootedWorld delivered bootedWorld_booted hcareful).2.2.2 rfl⟩

/-- A landed commit is discarded, and its row stands in the store without a state in memory. -/
theorem overtaken_run_disagrees :
    Booted sampleKernel bootedWorld ∧
      (machine sampleKernel).Follows (fun _ _ => True) bootedWorld overtaken ∧
      ¬ (((machine sampleKernel).run bootedWorld overtaken).owner.pendingInitialFees.isEmpty =
        true →
        ∀ channelId, ((machine sampleKernel).run bootedWorld overtaken).store.row channelId =
          memoryRow sampleKernel
            ((machine sampleKernel).run bootedWorld overtaken).owner.state channelId) := by
  refine ⟨bootedWorld_booted, Machine.follows_append.mpr ⟨landing_careful.mono fun _ _ _ => trivial,
    enabled_nudge rfl rfl, trivial, enabled_silent rfl rfl, trivial, trivial⟩, fun hagrees => ?_⟩
  have hrow := hagrees rfl "2x1x1"
  have hstored : ((machine sampleKernel).run bootedWorld overtaken).store.row "2x1x1" =
      some (stateRow sampleKernel "2x1x1" ((200, 0), 10)) := rfl
  have hmemory : memoryRow sampleKernel
      ((machine sampleKernel).run bootedWorld overtaken).owner.state "2x1x1" = none := rfl
  rw [hstored, hmemory] at hrow
  cases hrow

end Example

end OwnerStore
