import RevenueOps.OwnerView

/-! The steps of the two processes on their common view: a generation taken over, a landed commit
installed, a command executed, and the owner's own commits. -/
namespace OwnerStore

open FallibleState SqlTransaction FeeRunway FeeOwner FeeStore KeyedTable CycleOwner

variable {κ φ ι τ : Type}

section Settle

variable {K : FeeKernel κ φ} {v : View κ φ ι} {channelId : String}

/-- The owner takes over another generation while nothing depends on its own. -/
theorem synced_regenerate (hv : v.Synced K) {g : ℕ} (hle : g ≤ v.store.generation)
    (hlanded : ∀ other, ¬ v.Landed other)
    (hlanding : ∀ other, v.Landing other → g = v.store.generation) :
    View.Synced K { v with generation := some g } := by
  refine ⟨⟨hv.identified.keyed, hv.identified.injective, hv.identified.issued, hv.identified.ids,
    hv.identified.nodup, hv.identified.bounded, hv.identified.fresh, hv.identified.owned,
    hv.identified.inFlight⟩, ?_⟩
  have ha := hv.agrees
  have hnot : ∀ other, ¬ View.Landed { v with generation := some g } other := by
    rintro other ⟨key, gen, basis, staged, n, howed⟩
    exact hlanded other ⟨key, gen, basis, staged, n, ⟨howed.awaited, howed.given⟩⟩
  constructor
  case tracked => exact ⟨g, rfl, hle⟩
  case basis => exact ha.basis
  case landing =>
    rintro other ⟨d, hd, hrest⟩
    exact congrArg some (hlanding other ⟨d, hd, hrest⟩)
  case committed =>
    intro other key gen basis staged n h
    exact ha.committed other key gen basis staged n ⟨h.awaited, h.given⟩
  case conflict =>
    intro other key gen basis staged expected found h
    exact ha.conflict other key gen basis staged expected found ⟨h.awaited, h.given⟩
  case landed =>
    intro other key gen basis staged n h
    exact absurd ⟨key, gen, basis, staged, n, h⟩ (hnot other)
  case overtaken => exact fun other h => absurd h (hnot other)
  case alone => exact fun other h => absurd h (hnot other)
  case rows => exact fun other _ => ha.rows other (hlanded other)

theorem landed_unique (hv : v.Synced K) {other : String} (h : v.Landed channelId)
    (h' : v.Landed other) :
    channelId = other := by
  by_contra hne
  obtain ⟨key, gen, basis, staged, n, howed⟩ := h'
  have hlt := hv.agrees.alone channelId h other key gen basis (some staged) n howed hne
  have hcurrent := (hv.agrees.landed other key gen basis staged n howed).1
  omega

def View.install (v : View κ φ ι) (channelId : String) (s : φ × κ) (generation : ℕ) : View κ φ ι :=
  { v with
    generation := some generation
    pending := v.pending.erase channelId
    memory := ⟨v.memory.cycleStates.insert channelId s.2, v.memory.feeStates.insert channelId s.1⟩ }

theorem synced_install (hv : v.Synced K) {eventKey : String} {generation basis n : ℕ}
    {staged : φ × κ}
    (ho : v.Owed channelId eventKey generation basis (some staged) (.ok (.committed n))) :
    (v.install channelId staged n).Synced K := by
  have hlanded : v.Landed channelId := ⟨eventKey, generation, basis, staged, n, ho⟩
  have hunparked := identified_unpark hv.identified (hv.identified.executed ho)
  refine ⟨⟨hunparked.keyed, hunparked.injective, hunparked.issued, hunparked.ids, hunparked.nodup,
    hunparked.bounded, hunparked.fresh, hunparked.owned, hunparked.inFlight⟩, ?_⟩
  have ha := hv.agrees
  obtain ⟨hstore, howner, hrow⟩ := ha.landed channelId eventKey generation basis staged n ho
  have howed : ∀ {other key gen basis staged' r},
      (v.install channelId staged n).Owed other key gen basis staged' r →
        v.Owed other key gen basis staged' r ∧ channelId ≠ other := fun h =>
    ⟨⟨(get_of_erase h.awaited).1, h.given⟩, (get_of_erase h.awaited).2⟩
  have hnot : ∀ other, ¬ (v.install channelId staged n).Landed other := by
    rintro other ⟨key, gen, basis, staged', n', h⟩
    exact (howed h).2 (landed_unique hv hlanded ⟨key, gen, basis, staged', n', (howed h).1⟩)
  constructor
  case tracked => exact ⟨n, rfl, hstore.ge⟩
  case basis => exact ha.basis
  case landing => exact fun other _ => congrArg some hstore.symm
  case committed =>
    intro other key gen basis staged' n' h
    exact ha.committed other key gen basis staged' n' (howed h).1
  case conflict =>
    intro other key gen basis staged' expected found h
    exact ha.conflict other key gen basis staged' expected found (howed h).1
  case landed =>
    intro other key gen basis staged' n' h
    exact absurd ⟨key, gen, basis, staged', n', h⟩ (hnot other)
  case overtaken => exact fun other h => absurd h (hnot other)
  case alone => exact fun other h => absurd h (hnot other)
  case rows =>
    intro other _
    have hmemory : memoryRow K (v.install channelId staged n).memory other =
        if channelId = other then some (stateRow K channelId (staged.1, staged.2))
        else memoryRow K v.memory other := memoryRow_insert
    rw [hmemory]
    by_cases hother : channelId = other
    · subst hother
      rw [if_pos rfl]
      exact hrow
    · rw [if_neg hother]
      exact ha.rows other fun h => hother (landed_unique hv hlanded h)

end Settle

section Store

variable {K : FeeKernel κ φ} {v : View κ φ ι}

structure Appends (s t : Store) (commit : FeeCycleCommit) : Prop where
  commits : t.commits = s.commits ++ [commit]

theorem Appends.generation {s t : Store} {commit : FeeCycleCommit} (h : Appends s t commit) :
    t.generation = s.generation + 1 := Store.generation_of_commits h.commits

theorem Appends.row {s t : Store} {commit : FeeCycleCommit} (h : Appends s t commit)
    (channelId : String) :
    t.row channelId = (commit.lastRow channelId).or (s.row channelId) :=
  Store.row_of_commits h.commits

theorem lastRow_single {commit : FeeCycleCommit} {row : FeeStateRow} (h : commit.stateRows = [row])
    {channelId : String} :
    commit.lastRow channelId = if row.channelId = channelId then some row else none := by
  unfold FeeCycleCommit.lastRow
  rw [h]
  by_cases hrow : row.channelId = channelId <;> simp [hrow]

theorem lastRow_none {commit : FeeCycleCommit} (h : commit.stateRows = []) {channelId : String} :
    commit.lastRow channelId = none := by
  unfold FeeCycleCommit.lastRow
  rw [h]
  rfl

def View.execute (v : View κ φ ι) (i : ℕ) (d : Dispatch) (store : Store)
    (result : Except String GuardedCommitOutcome) : View κ φ ι :=
  { v with
    store := store
    commits := v.commits.eraseIdx i
    results := v.results ++ [.commit d.channelId d.eventKey d.generation result] }

theorem owed_execute {i : ℕ} {d : Dispatch} {store : Store} {r : Except String GuardedCommitOutcome}
    {channelId eventKey : String} {generation basis : ℕ} {staged : Option (φ × κ)}
    {result : Except String GuardedCommitOutcome}
    (h : (v.execute i d store r).Owed channelId eventKey generation basis staged result) :
    v.Owed channelId eventKey generation basis staged result ∨
      (channelId = d.channelId ∧ eventKey = d.eventKey ∧ generation = d.generation ∧
        result = r) := by
  rcases List.mem_append.mp h.given with hgiven | hgiven
  · exact .inl ⟨h.awaited, hgiven⟩
  · cases List.mem_singleton.mp hgiven
    exact .inr ⟨rfl, rfl, rfl, rfl⟩

theorem identified_execute {i : ℕ} {d : Dispatch} {store : Store}
    {r : Except String GuardedCommitOutcome}
    (hv : v.Identified K) (hd : v.commits[i]? = some d) : (v.execute i d store r).Identified K := by
  obtain ⟨hi, rfl⟩ := List.getElem?_eq_some_iff.mp hd
  have hperm := List.getElem_cons_eraseIdx_perm hi
  refine ⟨hv.keyed, hv.injective, hv.issued, ?_, hv.nodup, hv.bounded, hv.fresh, hv.owned, ?_⟩
  · have hresults : (v.execute i v.commits[i] store r).results.filterMap commitId =
        v.results.filterMap commitId ++ [v.commits[i].generation] := by
      unfold View.execute
      rw [List.filterMap_append]
      rfl
    rw [hresults]
    refine List.Perm.trans ?_ hv.ids
    refine List.Perm.trans ?_ ((hperm.map Dispatch.generation).append_right _)
    rw [← List.append_assoc, List.map_cons, List.cons_append]
    exact List.perm_append_comm
  · intro d' hd'
    exact hv.inFlight d' (List.eraseIdx_subset hd')

theorem synced_execute_refused (hv : v.Synced K) {i : ℕ} {d : Dispatch}
    {r : Except String GuardedCommitOutcome} (hd : v.commits[i]? = some d)
    (hr : ∀ n, r ≠ .ok (.committed n))
    (hfound : ∀ expected found, r = .ok (.generationConflict expected found) →
      found ≤ v.store.generation) :
    (v.execute i d v.store r).Synced K := by
  refine ⟨identified_execute hv.identified hd, ?_⟩
  have ha := hv.agrees
  have hsub : ∀ d' ∈ (v.execute i d v.store r).commits, d' ∈ v.commits := fun d' hd' =>
    List.eraseIdx_subset hd'
  have hlanded : ∀ other, (v.execute i d v.store r).Landed other → v.Landed other := by
    rintro other ⟨key, gen, basis, staged, n, h⟩
    rcases owed_execute h with howed | ⟨-, -, -, hsame⟩
    · exact ⟨key, gen, basis, staged, n, howed⟩
    · exact absurd hsame.symm (hr n)
  have hkept : ∀ other, v.Landed other → (v.execute i d v.store r).Landed other := by
    rintro other ⟨key, gen, basis, staged, n, h⟩
    exact ⟨key, gen, basis, staged, n, ⟨h.awaited, List.mem_append_left _ h.given⟩⟩
  constructor
  case tracked => exact ha.tracked
  case basis => exact fun d' hd' => ha.basis d' (hsub d' hd')
  case landing =>
    rintro other ⟨d', hd', hrest⟩
    exact ha.landing other ⟨d', hsub d' hd', hrest⟩
  case committed =>
    intro other key gen basis staged n h
    rcases owed_execute h with howed | ⟨-, -, -, hsame⟩
    · exact ha.committed other key gen basis staged n howed
    · exact absurd hsame.symm (hr n)
  case conflict =>
    intro other key gen basis staged expected found h
    rcases owed_execute h with howed | ⟨-, -, -, hsame⟩
    · exact ha.conflict other key gen basis staged expected found howed
    · exact hfound expected found hsame.symm
  case landed =>
    intro other key gen basis staged n h
    rcases owed_execute h with howed | ⟨-, -, -, hsame⟩
    · exact ha.landed other key gen basis staged n howed
    · exact absurd hsame.symm (hr n)
  case overtaken =>
    exact fun other h d' hd' => ha.overtaken other (hlanded other h) d' (hsub d' hd')
  case alone =>
    intro other h c key gen basis staged n ho
    rcases owed_execute ho with howed | ⟨-, -, -, hsame⟩
    · exact ha.alone other (hlanded other h) c key gen basis staged n howed
    · exact absurd hsame.symm (hr n)
  case rows => exact fun other h => ha.rows other fun hl => h (hkept other hl)

theorem synced_execute_committed (hv : v.Synced K) {i : ℕ} {d : Dispatch} {t : Store}
    (hd : v.commits[i]? = some d) (hexpected : d.expectedPriorGeneration = v.store.generation)
    (ht : Appends v.store t d.commit) :
    (v.execute i d t (.ok (.committed (v.store.generation + 1)))).Synced K := by
  refine ⟨identified_execute hv.identified hd, ?_⟩
  have ha := hv.agrees
  have hmem : d ∈ v.commits := List.mem_of_getElem? hd
  obtain ⟨staged, hawaited, hrows⟩ := hv.identified.inFlight d hmem
  have hstore : (v.execute i d t (.ok (.committed (v.store.generation + 1)))).store.generation =
      v.store.generation + 1 := ht.generation
  have hsub : ∀ d' ∈ v.commits.eraseIdx i, d'.expectedPriorGeneration ≤ v.store.generation :=
    fun d' hd' => ha.basis d' (List.eraseIdx_subset hd')
  -- before the step nothing had landed
  have hnot : ∀ other, ¬ v.Landed other := by
    intro other hother
    have hlt := ha.overtaken other hother d hmem
    omega
  have hnew : ∀ {other key gen basis} {s : φ × κ} {n},
      (v.execute i d t (.ok (.committed (v.store.generation + 1)))).Owed other key
        gen basis (some s)
        (.ok (.committed n)) →
      other = d.channelId ∧ n = v.store.generation + 1 ∧ basis = d.expectedPriorGeneration ∧
        staged = some s := by
    intro other key gen basis s n h
    rcases owed_execute h with howed | ⟨rfl, rfl, rfl, hsame⟩
    · exact absurd ⟨key, gen, basis, s, n, howed⟩ (hnot other)
    · have hentry := hawaited.symm.trans h.awaited
      cases hsame
      cases hentry
      exact ⟨rfl, rfl, rfl, rfl⟩
  constructor
  case tracked =>
    obtain ⟨g, hg, hle⟩ := ha.tracked
    exact ⟨g, hg, by omega⟩
  case basis =>
    intro d' hd'
    have hle := hsub d' hd'
    omega
  case landing =>
    rintro other ⟨d', hd', -, hcurrent, -⟩
    have hle := hsub d' hd'
    omega
  case committed =>
    intro other key gen basis staged' n h
    rcases owed_execute h with howed | ⟨rfl, rfl, rfl, hsame⟩
    · obtain ⟨hnext, hle⟩ := ha.committed other key gen basis staged' n howed
      exact ⟨hnext, by omega⟩
    · have hentry := hawaited.symm.trans h.awaited
      cases hsame
      cases hentry
      exact ⟨by omega, by omega⟩
  case conflict =>
    intro other key gen basis staged' expected found h
    rcases owed_execute h with howed | ⟨-, -, -, hsame⟩
    · have hle := ha.conflict other key gen basis staged' expected found howed
      omega
    · cases hsame
  case landed =>
    intro other key gen basis s n h
    obtain ⟨rfl, rfl, rfl, rfl⟩ := hnew h
    refine ⟨hstore, ?_, ?_⟩
    · rw [hexpected]
      exact ha.landing d.channelId ⟨d, hmem, rfl, hexpected, s, hawaited⟩
    · refine (ht.row d.channelId).trans ?_
      rw [lastRow_single hrows]
      simp [stateRow]
  case overtaken =>
    intro other _ d' hd'
    have hle := hsub d' hd'
    omega
  case alone =>
    intro other h c key gen basis staged' n ho hne
    obtain ⟨key', gen', basis', s', n', howed'⟩ := h
    obtain ⟨rfl, -⟩ := hnew howed'
    rcases owed_execute ho with howed | ⟨hsame, -⟩
    · have hle := (ha.committed c key gen basis staged' n howed).2
      omega
    · exact absurd hsame.symm hne
  case rows =>
    intro other h
    refine (ht.row other).trans ?_
    have hrow := ha.rows other (hnot other)
    cases staged with
    | none =>
      rw [lastRow_none hrows]
      exact hrow
    | some s =>
      have hne : d.channelId ≠ other := by
        rintro rfl
        exact h ⟨d.eventKey, d.generation, d.expectedPriorGeneration, s, _,
          ⟨hawaited, List.mem_append_right _ (List.mem_singleton_self _)⟩⟩
      have hrow' : (stateRow K d.channelId s).channelId ≠ other := hne
      rw [lastRow_single hrows, if_neg hrow']
      exact hrow

def View.advance (v : View κ φ ι) (memory : ControllerState κ φ) (store : Store) : View κ φ ι :=
  { v with memory := memory, generation := some store.generation, store := store }

theorem synced_advance (hv : v.Synced K) {memory : ControllerState κ φ} {t : Store}
    {commit : FeeCycleCommit} (ht : Appends v.store t commit) (hlanded : ∀ other, ¬ v.Landed other)
    (hrows : ∀ channelId, t.row channelId = memoryRow K memory channelId) :
    (v.advance memory t).Synced K := by
  refine ⟨⟨hv.identified.keyed, hv.identified.injective, hv.identified.issued, hv.identified.ids,
    hv.identified.nodup, hv.identified.bounded, hv.identified.fresh, hv.identified.owned,
    hv.identified.inFlight⟩, ?_⟩
  have ha := hv.agrees
  have hstore : (v.advance memory t).store.generation = v.store.generation + 1 := ht.generation
  have hnot : ∀ other, ¬ (v.advance memory t).Landed other := by
    rintro other ⟨key, gen, basis, staged, n, h⟩
    exact hlanded other ⟨key, gen, basis, staged, n, ⟨h.awaited, h.given⟩⟩
  constructor
  case tracked => exact ⟨_, rfl, le_refl _⟩
  case basis =>
    intro d hd
    have hle := ha.basis d hd
    omega
  case landing => exact fun _ _ => rfl
  case committed =>
    intro other key gen basis staged n h
    obtain ⟨hnext, hle⟩ := ha.committed other key gen basis staged n ⟨h.awaited, h.given⟩
    exact ⟨hnext, by omega⟩
  case conflict =>
    intro other key gen basis staged expected found h
    have hle := ha.conflict other key gen basis staged expected found ⟨h.awaited, h.given⟩
    omega
  case landed =>
    intro other key gen basis staged n h
    exact absurd ⟨key, gen, basis, staged, n, h⟩ (hnot other)
  case overtaken => exact fun other h => absurd h (hnot other)
  case alone => exact fun other h => absurd h (hnot other)
  case rows => exact fun other _ => hrows other

theorem synced_nudge (hv : v.Synced K) {channelId : String} {cycle : κ} {fee : φ} {t : Store}
    {commit : FeeCycleCommit} (ht : Appends v.store t commit) (hlanded : ∀ other, ¬ v.Landed other)
    (hcycle : v.memory.cycleStates.get? channelId = some cycle)
    (hcommit : commit.stateRows = [stateRow K channelId (fee, cycle)]) :
    (v.advance ⟨v.memory.cycleStates, v.memory.feeStates.insert channelId fee⟩ t).Synced K := by
  refine synced_advance hv ht hlanded fun other => ?_
  rw [ht.row, lastRow_single hcommit, hv.agrees.rows other (hlanded other)]
  unfold memoryRow
  by_cases hother : channelId = other
  · subst hother
    simp [stateRow, hcycle]
  · simp [stateRow, hother, Dict.get_insert_ne hother]

theorem synced_cycle (hv : v.Synced K) {memory : ControllerState κ φ} {t : Store}
    {commit : FeeCycleCommit} (ht : Appends v.store t commit) (hlanded : ∀ other, ¬ v.Landed other)
    (hwritten : ∀ channelId, memoryRow K memory channelId = none →
      memoryRow K v.memory channelId = none)
    (hcommit : commit.stateRows = stateRows K memory) : (v.advance memory t).Synced K := by
  refine synced_advance hv ht hlanded fun other => ?_
  rw [ht.row, lastRow_stateRows hcommit, hv.agrees.rows other (hlanded other)]
  cases hrow : memoryRow K memory other with
  | none => exact hwritten other hrow
  | some row => rfl

end Store

end OwnerStore
