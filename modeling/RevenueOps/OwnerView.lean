import RevenueOps.OwnerStore

/-! What the owner and its store have to agree on: the channel states in memory, the generation the
owner works from, the new channels in flight, and the store with the results it has given. -/
namespace OwnerStore

open FallibleState SqlTransaction FeeRunway FeeOwner FeeStore KeyedTable CycleOwner

variable {κ φ ι τ : Type}

section View

structure View (κ φ ι : Type) where
  memory : ControllerState κ φ
  generation : Option ℕ
  pending : Dict String (PendingInitialFee κ φ ι)
  seq : ℕ
  store : Store
  commits : List Dispatch
  dispatched : List Dispatch
  results : List InitialFeeStoreResult

def World.view (w : World κ φ ι τ) : View κ φ ι :=
  ⟨w.owner.state, w.owner.stateGeneration, w.owner.pendingInitialFees,
    w.owner.initialFeeDispatchSeq,
    w.store, w.commits, w.dispatched, w.results⟩

def commitId : InitialFeeStoreResult → Option ℕ
  | .commit _ _ generation _ => some generation
  | _ => none

structure View.Owed (v : View κ φ ι) (channelId eventKey : String) (generation basis : ℕ)
    (staged : Option (φ × κ)) (result : Except String GuardedCommitOutcome) : Prop where
  awaited : v.pending.get? channelId = some (.committing eventKey generation basis staged)
  given : .commit channelId eventKey generation result ∈ v.results

/-- A commit of channel states that stands in the store and not yet in memory. -/
def View.Landed (v : View κ φ ι) (channelId : String) : Prop :=
  ∃ eventKey generation basis staged n,
    v.Owed channelId eventKey generation basis (some staged) (.ok (.committed n))

def View.Landing (v : View κ φ ι) (channelId : String) : Prop :=
  ∃ d ∈ v.commits, d.channelId = channelId ∧ d.expectedPriorGeneration = v.store.generation ∧
    ∃ staged, v.pending.get? channelId =
      some (.committing d.eventKey d.generation d.expectedPriorGeneration (some staged))

/-- A dispatch under which the owner awaits a commit of these staged states. -/
structure Dispatch.Carries (K : FeeKernel κ φ) (d : Dispatch) (channelId eventKey : String)
    (generation basis : ℕ) (staged : Option (φ × κ)) : Prop where
  channel : d.channelId = channelId
  key : d.eventKey = eventKey
  number : d.generation = generation
  basis : d.expectedPriorGeneration = basis
  rows : d.commit.stateRows = staged.toList.map (stateRow K channelId)

structure View.Identified (K : FeeKernel κ φ) (v : View κ φ ι) : Prop where
  keyed : ∀ channelId eventKey generation prepared, v.pending.get? channelId =
    some (.checkingIdempotency eventKey generation prepared) → prepared.channelId = channelId
  injective : ∀ channelId other entry entry', v.pending.get? channelId = some entry →
    v.pending.get? other = some entry' → entry.generation = entry'.generation → channelId = other
  issued : ∀ channelId entry, v.pending.get? channelId = some entry → entry.generation ≤ v.seq
  ids : (v.commits.map Dispatch.generation ++ v.results.filterMap commitId).Perm
    (v.dispatched.map Dispatch.generation)
  nodup : (v.dispatched.map Dispatch.generation).Nodup
  bounded : ∀ d ∈ v.dispatched, d.generation ≤ v.seq
  fresh : ∀ channelId eventKey generation prepared, v.pending.get? channelId =
    some (.checkingIdempotency eventKey generation prepared) →
      generation ∉ v.dispatched.map Dispatch.generation
  owned : ∀ channelId eventKey generation basis staged, v.pending.get? channelId =
    some (.committing eventKey generation basis staged) →
      ∃ d ∈ v.dispatched, d.Carries K channelId eventKey generation basis staged
  inFlight : ∀ d ∈ v.commits, ∃ staged, v.pending.get? d.channelId =
    some (.committing d.eventKey d.generation d.expectedPriorGeneration staged) ∧
      d.commit.stateRows = staged.toList.map (stateRow K d.channelId)

/-- The generations, and the rows of every channel but one whose commit has landed. -/
structure View.Agrees (K : FeeKernel κ φ) (v : View κ φ ι) : Prop where
  tracked : ∃ g, v.generation = some g ∧ g ≤ v.store.generation
  basis : ∀ d ∈ v.commits, d.expectedPriorGeneration ≤ v.store.generation
  landing : ∀ channelId, v.Landing channelId → v.generation = some v.store.generation
  committed : ∀ channelId eventKey generation basis staged n,
    v.Owed channelId eventKey generation basis staged (.ok (.committed n)) →
      n = basis + 1 ∧ n ≤ v.store.generation
  conflict : ∀ channelId eventKey generation basis staged expected found,
    v.Owed channelId eventKey generation basis staged (.ok (.generationConflict expected found)) →
      found ≤ v.store.generation
  landed : ∀ channelId eventKey generation basis staged n,
    v.Owed channelId eventKey generation basis (some staged) (.ok (.committed n)) →
      v.store.generation = n ∧ v.generation = some basis ∧
        v.store.row channelId = some (stateRow K channelId staged)
  overtaken : ∀ channelId, v.Landed channelId → ∀ d ∈ v.commits,
    d.expectedPriorGeneration < v.store.generation
  alone : ∀ channelId, v.Landed channelId → ∀ other eventKey generation basis staged n,
    v.Owed other eventKey generation basis staged (.ok (.committed n)) → channelId ≠ other →
      n < v.store.generation
  rows : ∀ channelId, ¬ v.Landed channelId → v.store.row channelId = memoryRow K v.memory channelId

structure View.Synced (K : FeeKernel κ φ) (v : View κ φ ι) : Prop where
  identified : v.Identified K
  agrees : v.Agrees K

end View

section Identity

variable {K : FeeKernel κ φ} {v : View κ φ ι} {channelId eventKey : String} {generation basis : ℕ}
  {staged : Option (φ × κ)} {result : Except String GuardedCommitOutcome}

theorem get_of_erase {α : Type} {m : Dict String α} {k j : String} {e : α}
    (h : (m.erase k).get? j = some e) : m.get? j = some e ∧ k ≠ j := by
  rw [Dict.get_erase] at h
  by_cases hk : k = j
  · rw [if_pos hk] at h
    cases h
  · rw [if_neg hk] at h
    exact ⟨h, hk⟩

theorem get_of_insert {α : Type} {m : Dict String α} {k j : String} {e e' : α}
    (h : (m.insert k e).get? j = some e') : (k = j ∧ e = e') ∨ (k ≠ j ∧ m.get? j = some e') := by
  rw [Dict.get_insert] at h
  by_cases hk : k = j
  · rw [if_pos hk] at h
    exact .inl ⟨hk, Option.some.inj h⟩
  · rw [if_neg hk] at h
    exact .inr ⟨hk, h⟩

theorem View.Identified.executed (hv : v.Identified K)
    (ho : v.Owed channelId eventKey generation basis staged result) :
    ∀ d ∈ v.commits, d.channelId ≠ channelId := by
  intro d hd hsame
  obtain ⟨staged', hawaited, -⟩ := hv.inFlight d hd
  rw [hsame, ho.awaited] at hawaited
  cases hawaited
  have hnodup := hv.ids.nodup_iff.mpr hv.nodup
  exact (List.nodup_append.mp hnodup).2.2 d.generation (List.mem_map_of_mem hd) d.generation
    (List.mem_filterMap.mpr ⟨_, ho.given, rfl⟩) rfl

theorem eq_of_nodup_filterMap {α β : Type} {f : α → Option β} {l : List α}
    (hn : (l.filterMap f).Nodup)
    {a b : α} {x : β} (ha : a ∈ l) (hb : b ∈ l) (hfa : f a = some x) (hfb : f b = some x) :
    a = b := by
  induction l with
  | nil => cases ha
  | cons c l ih =>
    have hmem : ∀ d ∈ l, f d = some x → x ∈ l.filterMap f := fun d hd h =>
      List.mem_filterMap.mpr ⟨d, hd, h⟩
    have hrest : (l.filterMap f).Nodup := hn.sublist ((List.sublist_cons_self c l).filterMap f)
    rcases List.mem_cons.mp ha with rfl | hal
    · rcases List.mem_cons.mp hb with rfl | hbl
      · rfl
      · rw [List.filterMap_cons_some hfa] at hn
        exact absurd (hmem b hbl hfb) (List.nodup_cons.mp hn).1
    · rcases List.mem_cons.mp hb with rfl | hbl
      · rw [List.filterMap_cons_some hfb] at hn
        exact absurd (hmem a hal hfa) (List.nodup_cons.mp hn).1
      · exact ih hrest hal hbl

theorem View.Identified.answeredOnce (hv : v.Identified K)
    {result' : Except String GuardedCommitOutcome}
    (ho : v.Owed channelId eventKey generation basis staged result)
    (ho' : v.Owed channelId eventKey generation basis staged result') : result = result' := by
  have hnodup := (List.nodup_append.mp (hv.ids.nodup_iff.mpr hv.nodup)).2.1
  have hsame := eq_of_nodup_filterMap hnodup ho.given ho'.given rfl rfl
  exact (InitialFeeStoreResult.commit.inj hsame).2.2.2

end Identity

section Unpark

variable {K : FeeKernel κ φ} {v : View κ φ ι} {channelId : String}

def View.unpark (v : View κ φ ι) (channelId : String) : View κ φ ι :=
  { v with pending := v.pending.erase channelId }

theorem owed_unpark {other eventKey : String} {generation basis : ℕ} {staged : Option (φ × κ)}
    {result : Except String GuardedCommitOutcome}
    (h : (v.unpark channelId).Owed other eventKey generation basis staged result) :
    v.Owed other eventKey generation basis staged result ∧ channelId ≠ other :=
  ⟨⟨(get_of_erase h.awaited).1, h.given⟩, (get_of_erase h.awaited).2⟩

theorem landed_unpark {other : String} (hne : channelId ≠ other) (h : v.Landed other) :
    (v.unpark channelId).Landed other := by
  obtain ⟨eventKey, generation, basis, staged, n, howed⟩ := h
  exact ⟨eventKey, generation, basis, staged, n,
    ⟨(Dict.get_erase_ne hne).trans howed.awaited, howed.given⟩⟩

theorem landed_of_unpark {other : String} (h : (v.unpark channelId).Landed other) :
    v.Landed other := by
  obtain ⟨eventKey, generation, basis, staged, n, howed⟩ := h
  exact ⟨eventKey, generation, basis, staged, n, (owed_unpark howed).1⟩

theorem identified_unpark (hv : v.Identified K) (hidle : ∀ d ∈ v.commits, d.channelId ≠ channelId) :
    (v.unpark channelId).Identified K where
  keyed c key gen prepared h := hv.keyed c key gen prepared (get_of_erase h).1
  injective c c' e e' h h' := hv.injective c c' e e' (get_of_erase h).1 (get_of_erase h').1
  issued c e h := hv.issued c e (get_of_erase h).1
  ids := hv.ids
  nodup := hv.nodup
  bounded := hv.bounded
  fresh c key gen prepared h := hv.fresh c key gen prepared (get_of_erase h).1
  owned c key gen basis staged h := hv.owned c key gen basis staged (get_of_erase h).1
  inFlight d hd := by
    obtain ⟨staged, hawaited, hrows⟩ := hv.inFlight d hd
    exact ⟨staged, (Dict.get_erase_ne fun h => hidle d hd h.symm).trans hawaited, hrows⟩

/-- An entry whose commit is neither in flight nor landed is taken out. -/
theorem synced_unpark (hv : v.Synced K) (hidle : ∀ d ∈ v.commits, d.channelId ≠ channelId)
    (hunlanded : ¬ v.Landed channelId) : (v.unpark channelId).Synced K := by
  refine ⟨identified_unpark hv.identified hidle, ?_⟩
  have ha := hv.agrees
  constructor
  case tracked => exact ha.tracked
  case basis => exact ha.basis
  case landing =>
    rintro other ⟨d, hd, hchannel, hbasis, staged, hawaited⟩
    exact ha.landing other ⟨d, hd, hchannel, hbasis, staged, (get_of_erase hawaited).1⟩
  case committed =>
    intro other key gen basis staged n h
    exact ha.committed other key gen basis staged n (owed_unpark h).1
  case conflict =>
    intro other key gen basis staged expected found h
    exact ha.conflict other key gen basis staged expected found (owed_unpark h).1
  case landed =>
    intro other key gen basis staged n h
    exact ha.landed other key gen basis staged n (owed_unpark h).1
  case overtaken => exact fun other h => ha.overtaken other (landed_of_unpark h)
  case alone =>
    intro other h c key gen basis staged n howed
    exact ha.alone other (landed_of_unpark h) c key gen basis staged n (owed_unpark howed).1
  case rows =>
    intro other h
    by_cases hother : channelId = other
    · exact ha.rows other (hother ▸ hunlanded)
    · exact ha.rows other fun hlanded => h (landed_unpark hother hlanded)

end Unpark

section Park

variable {K : FeeKernel κ φ} {v : View κ φ ι}

def View.parkCheck (v : View κ φ ι) (prepared : PreparedInitialFee ι) : View κ φ ι :=
  { v with
    seq := v.seq + 1
    pending := v.pending.insert prepared.channelId
      (.checkingIdempotency prepared.eventKey (v.seq + 1) prepared) }

theorem owed_parkCheck {prepared : PreparedInitialFee ι} {other eventKey : String}
    {generation basis : ℕ}
    {staged : Option (φ × κ)} {result : Except String GuardedCommitOutcome}
    (h : (v.parkCheck prepared).Owed other eventKey generation basis staged result) :
    v.Owed other eventKey generation basis staged result := by
  obtain ⟨-, hentry⟩ | ⟨-, hawaited⟩ := get_of_insert h.awaited
  · cases hentry
  · exact ⟨hawaited, h.given⟩

theorem landed_parkCheck {prepared : PreparedInitialFee ι}
    (hfree : v.pending.get? prepared.channelId = none) {other : String} :
    (v.parkCheck prepared).Landed other ↔ v.Landed other := by
  constructor
  · rintro ⟨eventKey, generation, basis, staged, n, howed⟩
    exact ⟨eventKey, generation, basis, staged, n, owed_parkCheck howed⟩
  · rintro ⟨eventKey, generation, basis, staged, n, howed⟩
    have hne : prepared.channelId ≠ other := by
      intro hsame
      rw [hsame, howed.awaited] at hfree
      cases hfree
    exact ⟨eventKey, generation, basis, staged, n,
      ⟨(Dict.get_insert_ne hne).trans howed.awaited, howed.given⟩⟩

theorem identified_parkCheck {prepared : PreparedInitialFee ι} (hv : v.Identified K)
    (hfree : v.pending.get? prepared.channelId = none) : (v.parkCheck prepared).Identified K := by
  constructor
  case keyed =>
    intro c key gen p h
    obtain ⟨hc, hentry⟩ | ⟨-, h⟩ := get_of_insert h
    · cases hentry
      exact hc
    · exact hv.keyed c key gen p h
  case injective =>
    intro c c' e e' h h' hgen
    obtain ⟨hc, rfl⟩ | ⟨hc, h⟩ := get_of_insert h
    · obtain ⟨hc', rfl⟩ | ⟨hc', h'⟩ := get_of_insert h'
      · exact hc.symm.trans hc'
      · have hissued := hv.issued c' e' h'
        have hnew : v.seq + 1 = e'.generation := hgen
        omega
    · obtain ⟨hc', rfl⟩ | ⟨hc', h'⟩ := get_of_insert h'
      · have hissued := hv.issued c e h
        have hnew : e.generation = v.seq + 1 := hgen
        omega
      · exact hv.injective c c' e e' h h' hgen
  case issued =>
    intro c e h
    obtain ⟨hc, rfl⟩ | ⟨hc, h⟩ := get_of_insert h
    · exact le_refl _
    · exact (hv.issued c e h).trans (Nat.le_succ _)
  case ids => exact hv.ids
  case nodup => exact hv.nodup
  case bounded => exact fun d hd => (hv.bounded d hd).trans (Nat.le_succ _)
  case fresh =>
    intro c key gen p h hmem
    obtain ⟨hc, hentry⟩ | ⟨-, h⟩ := get_of_insert h
    · cases hentry
      obtain ⟨d, hd, hgen⟩ := List.mem_map.mp hmem
      have hbounded := hv.bounded d hd
      omega
    · exact hv.fresh c key gen p h hmem
  case owned =>
    intro c key gen basis staged h
    obtain ⟨hc, hentry⟩ | ⟨-, h⟩ := get_of_insert h
    · cases hentry
    · exact hv.owned c key gen basis staged h
  case inFlight =>
    intro d hd
    obtain ⟨staged, hawaited, hrows⟩ := hv.inFlight d hd
    have hne : prepared.channelId ≠ d.channelId := by
      intro hsame
      rw [hsame, hawaited] at hfree
      cases hfree
    exact ⟨staged, (Dict.get_insert_ne hne).trans hawaited, hrows⟩

theorem synced_parkCheck {prepared : PreparedInitialFee ι} (hv : v.Synced K)
    (hfree : v.pending.get? prepared.channelId = none) : (v.parkCheck prepared).Synced K := by
  refine ⟨identified_parkCheck hv.identified hfree, ?_⟩
  have ha := hv.agrees
  constructor
  case tracked => exact ha.tracked
  case basis => exact ha.basis
  case landing =>
    rintro other ⟨d, hd, hchannel, hbasis, staged, hawaited⟩
    obtain ⟨-, hentry⟩ | ⟨-, hawaited⟩ := get_of_insert hawaited
    · cases hentry
    · exact ha.landing other ⟨d, hd, hchannel, hbasis, staged, hawaited⟩
  case committed =>
    intro other key gen basis staged n h
    exact ha.committed other key gen basis staged n (owed_parkCheck h)
  case conflict =>
    intro other key gen basis staged expected found h
    exact ha.conflict other key gen basis staged expected found (owed_parkCheck h)
  case landed =>
    intro other key gen basis staged n h
    exact ha.landed other key gen basis staged n (owed_parkCheck h)
  case overtaken => exact fun other h => ha.overtaken other ((landed_parkCheck hfree).mp h)
  case alone =>
    intro other h c key gen basis staged n howed
    exact ha.alone other ((landed_parkCheck hfree).mp h) c key gen basis staged n
      (owed_parkCheck howed)
  case rows => exact fun other h => ha.rows other fun hl => h ((landed_parkCheck hfree).mpr hl)

def View.parkCommit (v : View κ φ ι) (d : Dispatch) (staged : Option (φ × κ)) : View κ φ ι :=
  { v with
    pending := v.pending.insert d.channelId
      (.committing d.eventKey d.generation d.expectedPriorGeneration staged)
    commits := v.commits ++ [d]
    dispatched := v.dispatched ++ [d] }

theorem owed_parkCommit {d : Dispatch} {staged : Option (φ × κ)} {other eventKey : String}
    {generation basis : ℕ} {staged' : Option (φ × κ)} {result : Except String GuardedCommitOutcome}
    (hv : v.Identified K) (hfresh : d.generation ∉ v.dispatched.map Dispatch.generation)
    (h : (v.parkCommit d staged).Owed other eventKey generation basis staged' result) :
    v.Owed other eventKey generation basis staged' result := by
  obtain ⟨-, hentry⟩ | ⟨-, hawaited⟩ := get_of_insert h.awaited
  · cases hentry
    refine absurd (hv.ids.mem_iff.mp ?_) hfresh
    exact List.mem_append_right _ (List.mem_filterMap.mpr ⟨_, h.given, rfl⟩)
  · exact ⟨hawaited, h.given⟩

theorem landed_parkCommit {d : Dispatch} {staged : Option (φ × κ)} (hv : v.Identified K)
    (hfree : v.pending.get? d.channelId = none)
    (hfresh : d.generation ∉ v.dispatched.map Dispatch.generation) {other : String} :
    (v.parkCommit d staged).Landed other ↔ v.Landed other := by
  constructor
  · rintro ⟨eventKey, generation, basis, staged, n, howed⟩
    exact ⟨eventKey, generation, basis, staged, n, owed_parkCommit hv hfresh howed⟩
  · rintro ⟨eventKey, generation, basis, staged, n, howed⟩
    have hne : d.channelId ≠ other := by
      intro hsame
      rw [hsame, howed.awaited] at hfree
      cases hfree
    exact ⟨eventKey, generation, basis, staged, n,
      ⟨(Dict.get_insert_ne hne).trans howed.awaited, howed.given⟩⟩

structure Follows (K : FeeKernel κ φ) (v : View κ φ ι) (d : Dispatch) (staged : Option (φ × κ)) :
    Prop where
  free : v.pending.get? d.channelId = none
  fresh : d.generation ∉ v.dispatched.map Dispatch.generation
  issued : d.generation ≤ v.seq
  distinct : ∀ channelId entry, v.pending.get? channelId = some entry →
    entry.generation ≠ d.generation
  basis : v.generation = some d.expectedPriorGeneration
  rows : d.commit.stateRows = staged.toList.map (stateRow K d.channelId)

theorem identified_parkCommit {d : Dispatch} {staged : Option (φ × κ)} (hv : v.Identified K)
    (hd : Follows K v d staged) : (v.parkCommit d staged).Identified K := by
  have hdispatched : (v.parkCommit d staged).dispatched.map Dispatch.generation =
      v.dispatched.map Dispatch.generation ++ [d.generation] := List.map_append
  constructor
  case keyed =>
    intro c key gen p h
    obtain ⟨-, hentry⟩ | ⟨-, h⟩ := get_of_insert h
    · cases hentry
    · exact hv.keyed c key gen p h
  case injective =>
    intro c c' e e' h h' hgen
    obtain ⟨hc, rfl⟩ | ⟨hc, h⟩ := get_of_insert h
    · obtain ⟨hc', rfl⟩ | ⟨hc', h'⟩ := get_of_insert h'
      · exact hc.symm.trans hc'
      · exact absurd hgen.symm (hd.distinct c' e' h')
    · obtain ⟨hc', rfl⟩ | ⟨hc', h'⟩ := get_of_insert h'
      · exact absurd hgen (hd.distinct c e h)
      · exact hv.injective c c' e e' h h' hgen
  case issued =>
    intro c e h
    obtain ⟨hc, rfl⟩ | ⟨hc, h⟩ := get_of_insert h
    · exact hd.issued
    · exact hv.issued c e h
  case ids =>
    rw [hdispatched]
    have hcommits : (v.parkCommit d staged).commits.map Dispatch.generation =
        v.commits.map Dispatch.generation ++ [d.generation] := List.map_append
    rw [hcommits, List.append_assoc]
    refine (List.Perm.append_left _ List.perm_append_comm).trans ?_
    rw [← List.append_assoc]
    exact hv.ids.append_right _
  case nodup =>
    rw [hdispatched]
    refine List.nodup_append.mpr ⟨hv.nodup, List.nodup_singleton _, ?_⟩
    intro g hg g' hg' hsame
    rw [List.mem_singleton.mp hg'] at hsame
    exact hd.fresh (hsame ▸ hg)
  case bounded =>
    intro d' hd'
    rcases List.mem_append.mp hd' with hd' | hd'
    · exact hv.bounded d' hd'
    · rw [List.mem_singleton.mp hd']
      exact hd.issued
  case fresh =>
    intro c key gen p h hmem
    rw [hdispatched] at hmem
    obtain ⟨-, hentry⟩ | ⟨-, h⟩ := get_of_insert h
    · cases hentry
    rcases List.mem_append.mp hmem with hmem | hmem
    · exact hv.fresh c key gen p h hmem
    · exact hd.distinct c _ h (List.mem_singleton.mp hmem)
  case owned =>
    intro c key gen basis staged' h
    obtain ⟨hc, hentry⟩ | ⟨-, h⟩ := get_of_insert h
    · cases hentry
      exact ⟨d, List.mem_append_right _ (List.mem_singleton_self d),
        ⟨hc, rfl, rfl, rfl, hc ▸ hd.rows⟩⟩
    · obtain ⟨d', hd', hcarries⟩ := hv.owned c key gen basis staged' h
      exact ⟨d', List.mem_append_left _ hd', hcarries⟩
  case inFlight =>
    intro d' hd'
    rcases List.mem_append.mp hd' with hd' | hd'
    · obtain ⟨staged', hawaited, hrows⟩ := hv.inFlight d' hd'
      have hne : d.channelId ≠ d'.channelId := by
        intro hsame
        have hfree := hd.free
        rw [hsame, hawaited] at hfree
        cases hfree
      exact ⟨staged', (Dict.get_insert_ne hne).trans hawaited, hrows⟩
    · rw [List.mem_singleton.mp hd']
      exact ⟨staged, Dict.get_insert_self, hd.rows⟩

theorem synced_parkCommit {d : Dispatch} {staged : Option (φ × κ)} (hv : v.Synced K)
    (hd : Follows K v d staged) : (v.parkCommit d staged).Synced K := by
  refine ⟨identified_parkCommit hv.identified hd, ?_⟩
  have ha := hv.agrees
  have howed :=
    fun {other key gen basis staged' r} => @owed_parkCommit κ φ ι K v d staged other key gen basis
    staged' r hv.identified hd.fresh
  have hlanded :=
    fun {other} => @landed_parkCommit κ φ ι K v d staged hv.identified hd.free hd.fresh other
  obtain ⟨g, hg, hle⟩ := ha.tracked
  have hbasis : d.expectedPriorGeneration = g := by
    have htracked := hd.basis.symm.trans hg
    cases htracked
    rfl
  constructor
  case tracked => exact ha.tracked
  case basis =>
    intro d' hd'
    rcases List.mem_append.mp hd' with hd' | hd'
    · exact ha.basis d' hd'
    · rw [List.mem_singleton.mp hd', hbasis]
      exact hle
  case landing =>
    rintro other ⟨d', hd', hchannel, hcurrent, staged', hawaited⟩
    rcases List.mem_append.mp hd' with hd' | hd'
    · obtain ⟨hsame, -⟩ | ⟨-, hawaited⟩ := get_of_insert hawaited
      · obtain ⟨staged'', hentry, -⟩ := hv.identified.inFlight d' hd'
        rw [hchannel, ← hsame, hd.free] at hentry
        cases hentry
      · exact ha.landing other ⟨d', hd', hchannel, hcurrent, staged', hawaited⟩
    · rw [List.mem_singleton.mp hd'] at hcurrent
      exact hd.basis.trans (congrArg some hcurrent)
  case committed =>
    intro other key gen basis staged' n h
    exact ha.committed other key gen basis staged' n (howed h)
  case conflict =>
    intro other key gen basis staged' expected found h
    exact ha.conflict other key gen basis staged' expected found (howed h)
  case landed =>
    intro other key gen basis staged' n h
    exact ha.landed other key gen basis staged' n (howed h)
  case overtaken =>
    intro other h d' hd'
    have hother := hlanded.mp h
    rcases List.mem_append.mp hd' with hd' | hd'
    · exact ha.overtaken other hother d' hd'
    · -- a dispatch works from the generation that the landed commit has left behind
      obtain ⟨key, gen, basis, staged', n, howed'⟩ := hother
      obtain ⟨hstore, howner, -⟩ := ha.landed other key gen basis staged' n howed'
      obtain ⟨hnext, -⟩ := ha.committed other key gen basis _ n howed'
      have hsame := hg.symm.trans howner
      cases hsame
      have hbehind : g < v.store.generation := by omega
      rw [List.mem_singleton.mp hd', hbasis]
      exact hbehind
  case alone =>
    intro other h c key gen basis staged' n ho
    exact ha.alone other (hlanded.mp h) c key gen basis staged' n (howed ho)
  case rows => exact fun other h => ha.rows other fun hl => h (hlanded.mpr hl)

end Park

end OwnerStore
