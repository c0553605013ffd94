import RevenueOps.SegmentStore

/-! When a full store evicts its oldest entry. The ring is what the last export left, newest first,
and then the later records in time order; the two orders agree exactly when the exported part has
one time. -/
namespace SegmentStore

open RustText StableSelection SegmentObservationStore

section Calls

variable {s : SegmentObservationStore} {now : ℤ}

theorem lastEntries_of_le {α : Type} {n : ℕ} {l : List α} (h : l.length ≤ n) :
    lastEntries n l = l := by
  have hzero : l.length - n = 0 := by omega
  rw [lastEntries, hzero, List.drop_zero]

theorem length_sortedValid_le : (s.sortedValid now).length ≤ s.maxObservations := by
  have hvalid := List.length_filterMap_le (fun e => validObservation s.ttlSeconds e now)
    s.observations
  have hsort : (s.sortedValid now).length =
      (s.observations.filterMap fun e => validObservation s.ttlSeconds e now).length :=
    (perm_sortByKey _).length_eq
  have hcap := s.capped
  omega

theorem exportSnapshot_observations :
    (s.exportSnapshot now).2.observations = s.sortedValid now :=
  lastEntries_of_le length_sortedValid_le

theorem push_observations (entry : SegmentObservation) :
    (s.push entry).observations =
      (s.observations ++ [entry]).drop (s.observations.length + 1 - s.maxObservations) := by
  simp [push, lastEntries]

theorem push_full (entry : SegmentObservation) (h : s.observations.length = s.maxObservations) :
    (s.push entry).observations = (s.observations ++ [entry]).tail := by
  rw [push_observations, h, Nat.add_sub_cancel_left, List.drop_one]

theorem record_rejected {scid : String} {direction : UInt8} {amountSats : ℤ} {cls : String}
    {confidence : Float} (h : bucketAmountSats amountSats ≤ 0) :
    s.record scid direction amountSats cls confidence now = (none, s) := by
  simp [record, h]

theorem record_accepted {scid : String} {direction : UInt8} {amountSats : ℤ} {cls : String}
    {confidence : Float} (h : 0 < bucketAmountSats amountSats) :
    s.record scid direction amountSats cls confidence now =
      (some (observation scid direction (bucketAmountSats amountSats) cls confidence now
          s.nextObservationId),
        s.push (observation scid direction (bucketAmountSats amountSats) cls confidence now
          s.nextObservationId)) := by
  simp [record, not_le.mpr h]

theorem validObservation_some {ttl : ℤ} {e o : SegmentObservation}
    (h : validObservation ttl e now = some o) :
    o.observedAt = e.observedAt ∧ o.direction = e.direction ∧
      o.shortChannelId = trim e.shortChannelId ∧ o.observationId = trim e.observationId ∧
      o.amountBucketSats = e.amountBucketSats := by
  unfold validObservation at h
  split at h
  · cases h
  · split at h
    · cases h
    · split at h
      · cases h
      · split at h
        · cases h
        · cases h
          exact ⟨rfl, rfl, rfl, rfl, rfl⟩

end Calls

section Order

variable {s : SegmentObservationStore} {now : ℤ}

/-- What the last export left, newest first, and behind it what was recorded since. -/
structure Shaped (s : SegmentObservationStore) (now : ℤ)
    (exported recorded : List SegmentObservation) :
    Prop where
  ring : s.observations = exported ++ recorded
  descending : exported.Pairwise fun a b => b.observedAt ≤ a.observedAt
  ascending : recorded.Pairwise fun a b => a.observedAt ≤ b.observedAt
  between : ∀ a ∈ exported, ∀ b ∈ recorded, a.observedAt ≤ b.observedAt
  past : ∀ e ∈ s.observations, e.observedAt ≤ now

theorem Shaped.later {exported recorded : List SegmentObservation} {now' : ℤ}
    (h : Shaped s now exported recorded) (hle : now ≤ now') : Shaped s now' exported recorded :=
  { h with past := fun e he => (h.past e he).trans hle }

theorem shaped_export (h : ∀ e ∈ s.observations, e.observedAt ≤ now) :
    Shaped (s.exportSnapshot now).2 now (s.sortedValid now) [] := by
  have hsorted : (s.sortedValid now).Pairwise fun a b => -a.observedAt ≤ -b.observedAt :=
    pairwise_sortByKey _
  refine ⟨?_, ?_, List.Pairwise.nil, ?_, ?_⟩
  · rw [exportSnapshot_observations, List.append_nil]
  · exact hsorted.imp fun hab => by omega
  · intro a _ b hb
    cases hb
  · intro e he
    rw [exportSnapshot_observations, sortedValid, (perm_sortByKey _).mem_iff,
      List.mem_filterMap] at he
    obtain ⟨e', he', hvalid⟩ := he
    rw [(validObservation_some hvalid).1]
    exact h e' he'

theorem shaped_push {exported recorded : List SegmentObservation} {entry : SegmentObservation}
    (h : Shaped s now exported recorded) (hentry : now ≤ entry.observedAt) :
    ∃ exported' recorded', Shaped (s.push entry) entry.observedAt exported' recorded' := by
  have hpast : ∀ e ∈ s.observations, e.observedAt ≤ entry.observedAt :=
    fun e he => (h.past e he).trans hentry
  let k := s.observations.length + 1 - s.maxObservations
  refine ⟨exported.drop k, (recorded ++ [entry]).drop (k - exported.length), ?_⟩
  have hrecorded : (recorded ++ [entry]).Pairwise fun a b => a.observedAt ≤ b.observedAt := by
    rw [List.pairwise_append]
    refine ⟨h.ascending, List.pairwise_singleton _ _, ?_⟩
    intro a ha b hb
    rw [List.mem_singleton.mp hb]
    exact hpast a (by rw [h.ring]; exact List.mem_append_right _ ha)
  refine ⟨?_, h.descending.sublist (List.drop_sublist _ _),
    hrecorded.sublist (List.drop_sublist _ _), ?_, ?_⟩
  · have hring : (s.push entry).observations = (exported ++ (recorded ++ [entry])).drop k := by
      rw [push_observations, ← List.append_assoc, ← h.ring]
    rw [hring, List.drop_append]
  · intro a ha b hb
    have ha' := List.mem_of_mem_drop ha
    rcases List.mem_append.mp (List.mem_of_mem_drop hb) with hb | hb
    · exact h.between a ha' b hb
    · rw [List.mem_singleton.mp hb]
      exact hpast a (by rw [h.ring]; exact List.mem_append_left _ ha')
  · intro e he
    rw [push_observations] at he
    rcases List.mem_append.mp (List.mem_of_mem_drop he) with he | he
    · exact hpast e he
    · rw [List.mem_singleton.mp he]

theorem run_shaped {ttl cap : ℤ} {allowed : SegmentObservationStore → Call → Prop} {h : History}
    (hrun : Run ttl cap allowed h now) :
    ∃ exported recorded, Shaped h.store now exported recorded := by
  induction hrun with
  | fresh now =>
    exact ⟨[], [], rfl, List.Pairwise.nil, List.Pairwise.nil, by simp, by simp [History.fresh, new]⟩
  | @call h now c _ hle _ ih =>
    obtain ⟨exported, recorded, hshape⟩ := ih
    cases c with
    | exportSnapshot t =>
      exact ⟨_, _, shaped_export (hshape.later hle).past⟩
    | record scid direction amountSats cls confidence t =>
      by_cases hbucket : 0 < bucketAmountSats amountSats
      · simp only [History.perform, record_accepted hbucket]
        exact shaped_push hshape hle
      · simp only [History.perform, record_rejected (not_lt.mp hbucket)]
        exact ⟨exported, recorded, hshape.later hle⟩

/-- The head of the ring is its oldest entry exactly when the whole ring is in time order. -/
theorem Shaped.head_oldest_iff {exported recorded rest : List SegmentObservation}
    {d : SegmentObservation} (h : Shaped s now exported recorded)
    (hring : s.observations = d :: rest) :
    (∀ e ∈ s.observations, d.observedAt ≤ e.observedAt) ↔ TimeOrdered s := by
  constructor
  · intro hmin
    rw [TimeOrdered, h.ring, List.pairwise_append]
    refine ⟨?_, h.ascending, h.between⟩
    apply h.descending.imp_of_mem
    intro a b ha hb _
    -- Every exported entry has the time of the head, which is both the newest and the oldest.
    have hle : ∀ e ∈ exported, e.observedAt ≤ d.observedAt := by
      have heq := h.ring
      rw [hring] at heq
      cases exported with
      | nil => simp
      | cons x xs =>
        obtain ⟨rfl, -⟩ := List.cons.inj heq
        intro e he
        rcases List.mem_cons.mp he with rfl | he
        · exact le_rfl
        · exact (List.pairwise_cons.mp h.descending).1 e he
    have hmin' := hmin b (by rw [h.ring]; exact List.mem_append_left _ hb)
    exact (hle a ha).trans hmin'
  · intro hordered e he
    rw [TimeOrdered, hring, List.pairwise_cons] at hordered
    rw [hring] at he
    rcases List.mem_cons.mp he with rfl | he
    · exact le_rfl
    · exact hordered.1 e he

end Order

section Eviction

variable {h : History} {now : ℤ}

theorem held_of_evicts {c : Call} (hevicts : Evicts h.store c) :
    ∃ entry, entry.observedAt = c.time ∧ held h.store c = h.store.observations ++ [entry] ∧
      (h.perform c).store = h.store.push entry ∧
      (h.perform c).accepted = h.accepted ++ [entry] := by
  cases c with
  | exportSnapshot t => exact hevicts.elim
  | record scid direction amountSats cls confidence t =>
    refine ⟨observation scid direction (bucketAmountSats amountSats) cls confidence t
      h.store.nextObservationId, rfl, ?_, ?_, ?_⟩
    · simp only [held, record_accepted hevicts.1]
      rfl
    · simp only [History.perform, record_accepted hevicts.1]
    · simp only [History.perform, record_accepted hevicts.1]
      rfl

theorem full_of_evicts {s : SegmentObservationStore} {c : Call} (hevicts : Evicts s c) :
    s.observations.length = s.maxObservations := by
  cases c with
  | exportSnapshot t => exact hevicts.elim
  | record => exact hevicts.2

theorem dropsOldest_iff {exported recorded : List SegmentObservation} {c : Call}
    (hshape : Shaped h.store now exported recorded) (hle : now ≤ c.time)
    (hevicts : Evicts h.store c) : DropsOldest h c ↔ TimeOrdered h.store := by
  obtain ⟨entry, htime, hheld, hstore, -⟩ := held_of_evicts hevicts
  have hfull := full_of_evicts hevicts
  have hafter := push_full entry hfull
  have hlen : 0 < h.store.observations.length := by
    rw [hfull]
    exact h.store.positive
  obtain ⟨d, rest, hring⟩ := List.exists_cons_of_length_pos hlen
  have hsplit : held h.store c = d :: (h.perform c).store.observations := by
    rw [hheld, hstore, hafter, hring]
    rfl
  rw [← hshape.head_oldest_iff hring]
  constructor
  · rintro ⟨dropped, hdropped, hmin⟩
    obtain ⟨rfl, -⟩ := List.cons.inj (hsplit.symm.trans hdropped)
    intro e he
    exact hmin e (by rw [hheld]; exact List.mem_append_left _ he)
  · intro hmin
    refine ⟨d, hsplit, ?_⟩
    intro e he
    rw [hheld] at he
    rcases List.mem_append.mp he with he | he
    · exact hmin e he
    · rw [List.mem_singleton.mp he, htime]
      exact (hshape.past d (by rw [hring]; exact List.mem_cons_self)).trans hle

end Eviction

section Retention

/-- The entry stands for the observation: an export may have trimmed its texts. -/
structure StandsFor (e o : SegmentObservation) : Prop where
  id : e.observationId = o.observationId
  solid : trim o.observationId = o.observationId ∧ o.observationId ≠ ""
  time : e.observedAt = o.observedAt
  direction : e.direction = o.direction
  channel : trim e.shortChannelId = trim o.shortChannelId
  bucket : 0 < e.amountBucketSats

theorem not_whitespace_of_digit {c : Char} (h : c.isDigit = true) : isWhitespace c = false := by
  simp only [Char.isDigit, Bool.and_eq_true, decide_eq_true_eq, UInt32.le_iff_toNat_le,
    ge_iff_le] at h
  change 48 ≤ c.toNat ∧ c.toNat ≤ 57 at h
  simp only [isWhitespace, Bool.or_eq_false_iff, Bool.and_eq_false_iff, decide_eq_false_iff_not,
    beq_eq_false_iff_ne]
  omega

theorem solid_of_all {cs : List Char} (h : (cs.all fun c => !isWhitespace c) = true) {c : Char}
    (hc : c ∈ cs) : isWhitespace c = false := by
  simpa using List.all_eq_true.mp h c hc

theorem observation_id_solid (now : ℤ) (seq : ℕ) :
    trim ("obs-" ++ toString now ++ "-" ++ toString seq) =
      "obs-" ++ toString now ++ "-" ++ toString seq := by
  apply trim_of_solid
  intro c hc
  simp only [String.toList_append, List.mem_append] at hc
  rcases hc with ((hc | hc) | hc) | hc
  · exact solid_of_all (by decide) hc
  · rcases mem_toString_int hc with hdigit | rfl
    · exact not_whitespace_of_digit hdigit
    · decide
  · exact solid_of_all (by decide) hc
  · rw [Nat.toString_eq_repr, Nat.toList_repr] at hc
    exact not_whitespace_of_digit (Nat.isDigit_of_mem_toDigits (by decide) (by decide) hc)

/-- An export keeps an entry whose observation is well formed and not too old. -/
theorem validObservation_keeps {ttl now : ℤ} {e o : SegmentObservation} (h : StandsFor e o)
    (hformed : WellFormed o) (hage : now - o.observedAt ≤ ttl) :
    ∃ e', validObservation ttl e now = some e' := by
  obtain ⟨hchannel, hdirection, htime⟩ := hformed
  have hscid : ¬ (trim e.shortChannelId = "" ∨ e.direction ≠ 0 ∧ e.direction ≠ 1) := by
    rw [h.channel, h.direction]
    rcases hdirection with hd | hd <;> simp [hchannel, hd]
  have hbucket : ¬ e.amountBucketSats ≤ 0 := not_le.mpr h.bucket
  have hfresh : ¬ (e.observedAt ≤ 0 ∨ ttl < now - e.observedAt) := by
    rw [h.time]
    omega
  have hid : trim e.observationId ≠ "" := by
    rw [h.id, h.solid.1]
    exact h.solid.2
  exact ⟨_, by rw [validObservation, if_neg hscid, if_neg hbucket, if_neg hfresh, if_neg hid]⟩

theorem StandsFor.valid {ttl now : ℤ} {e e' o : SegmentObservation} (h : StandsFor e o)
    (hvalid : validObservation ttl e now = some e') : StandsFor e' o := by
  obtain ⟨htime, hdirection, hchannel, hid, hbucket⟩ := validObservation_some hvalid
  refine ⟨?_, h.solid, htime.trans h.time, hdirection.trans h.direction, ?_, ?_⟩
  · rw [hid, h.id, h.solid.1]
  · rw [hchannel, trim_trim, h.channel]
  · rw [hbucket]
    exact h.bucket

structure Numbered (h : History) (now : ℤ) (g : List (ℕ × SegmentObservation)) : Prop where
  ring : g.map Prod.snd = h.store.observations
  stands : ∀ p ∈ g, ∃ o, h.accepted[p.1]? = some o ∧ StandsFor p.2 o
  inOrder : g.Pairwise fun p q => p.2.observedAt = q.2.observedAt → p.1 < q.1
  times : h.accepted.Pairwise fun a b => a.observedAt ≤ b.observedAt
  past : ∀ o ∈ h.accepted, o.observedAt ≤ now
  complete : ∀ i o, h.accepted[i]? = some o → h.accepted.length ≤ i + h.store.maxObservations →
    WellFormed o → now - o.observedAt ≤ h.store.ttlSeconds → ∃ p ∈ g, p.1 = i

variable {h : History} {now : ℤ} {g : List (ℕ × SegmentObservation)}

theorem Numbered.later {now' : ℤ} (hg : Numbered h now g) (hle : now ≤ now') : Numbered h now' g :=
  { hg with
    past := fun o ho => (hg.past o ho).trans hle
    complete := fun i o hi hnew hformed hage => hg.complete i o hi hnew hformed (by omega) }

theorem Numbered.ascending (hg : Numbered h now g) (hordered : TimeOrdered h.store) :
    g.Pairwise fun p q => p.1 < q.1 := by
  rw [TimeOrdered, ← hg.ring, List.pairwise_map] at hordered
  apply (hordered.and hg.inOrder).imp_of_mem
  rintro p q hp hq ⟨hle, hsame⟩
  obtain ⟨a, ha, hstands⟩ := hg.stands p hp
  obtain ⟨b, hb, hstands'⟩ := hg.stands q hq
  by_contra hge
  have htimes : b.observedAt ≤ a.observedAt := by
    rcases Nat.lt_or_eq_of_le (not_lt.mp hge) with hlt | heq
    · obtain ⟨hi, rfl⟩ := List.getElem?_eq_some_iff.mp hb
      obtain ⟨hj, rfl⟩ := List.getElem?_eq_some_iff.mp ha
      exact List.pairwise_iff_getElem.mp hg.times q.1 p.1 hi hj hlt
    · rw [heq, ha] at hb
      rw [Option.some.inj hb]
  have heq : p.2.observedAt = q.2.observedAt := by
    rw [hstands.time, hstands'.time] at hle ⊢
    omega
  exact hge (hsame heq)

theorem length_le_of_ascending {i n : ℕ} {is : List ℕ} (h : (i :: is).Pairwise (· < ·))
    (hn : ∀ j ∈ i :: is, j < n) : is.length + i < n := by
  induction is generalizing i with
  | nil => simpa using hn
  | cons j is ih =>
    rw [List.pairwise_cons] at h
    have hij := h.1 j List.mem_cons_self
    have hrest := ih h.2 fun k hk => hn k (List.mem_cons_of_mem _ hk)
    rw [List.length_cons]
    omega

theorem numbered_export (hg : Numbered h now g) :
    ∃ g', Numbered { h with store := (h.store.exportSnapshot now).2 } now g' := by
  let valid (p : ℕ × SegmentObservation) : Option (ℕ × SegmentObservation) :=
    (validObservation h.store.ttlSeconds p.2 now).map fun e => (p.1, e)
  have hmem : ∀ q, q ∈ sortByKey (fun p => -p.2.observedAt) (g.filterMap valid) →
      ∃ p ∈ g, q.1 = p.1 ∧ validObservation h.store.ttlSeconds p.2 now = some q.2 := by
    intro q hq
    rw [(perm_sortByKey _).mem_iff, List.mem_filterMap] at hq
    obtain ⟨p, hp, hvalid⟩ := hq
    obtain ⟨e, he, rfl⟩ := Option.map_eq_some_iff.mp hvalid
    exact ⟨p, hp, rfl, he⟩
  refine ⟨sortByKey (fun p => -p.2.observedAt) (g.filterMap valid), ?_, ?_, ?_, hg.times, hg.past,
    ?_⟩
  · have hmap : (g.filterMap valid).map Prod.snd =
        h.store.observations.filterMap fun e => validObservation h.store.ttlSeconds e now := by
      rw [← hg.ring, List.map_filterMap, List.filterMap_map]
      congr 1
      funext p
      simp [valid, Function.comp_def]
    rw [exportSnapshot_observations, sortedValid, ← hmap, sortByKey, sortByKey]
    exact List.map_insertionSort _ _ _ _ fun _ _ _ _ => Iff.rfl
  · intro q hq
    obtain ⟨p, hp, hplace, hvalid⟩ := hmem q hq
    obtain ⟨o, ho, hstands⟩ := hg.stands p hp
    exact ⟨o, by rw [hplace]; exact ho, hstands.valid hvalid⟩
  · -- The sort is stable, so entries of one time keep the order of their places.
    have hkept : (g.filterMap valid).Pairwise fun p q =>
        -p.2.observedAt = -q.2.observedAt → p.1 < q.1 := by
      apply hg.inOrder.filterMap
      intro p q hpq p' hp' q' hq' htimes
      obtain ⟨e, he, rfl⟩ := Option.map_eq_some_iff.mp hp'
      obtain ⟨e', he', rfl⟩ := Option.map_eq_some_iff.mp hq'
      have hp₁ := (validObservation_some he).1
      have hq₁ := (validObservation_some he').1
      have hsame : e.observedAt = e'.observedAt := by simpa using htimes
      exact hpq (by omega)
    exact (sameKey_sortByKey hkept).imp fun hpq heq => hpq (by rw [heq])
  · intro i o hi hnew hformed hage
    obtain ⟨p, hp, rfl⟩ := hg.complete i o hi hnew hformed hage
    obtain ⟨o', ho', hstands⟩ := hg.stands p hp
    obtain rfl : o = o' := Option.some.inj (hi.symm.trans ho')
    have hyoung : now - o.observedAt ≤ h.store.ttlSeconds := hage
    obtain ⟨e, he⟩ := validObservation_keeps hstands hformed hyoung
    refine ⟨(p.1, e), ?_, rfl⟩
    rw [(perm_sortByKey _).mem_iff, List.mem_filterMap]
    exact ⟨p, hp, by simp [valid, he]⟩

/-- The entry that a full ring gives up has as many observations behind it as the store holds. -/
theorem Numbered.mem_drop {p : ℕ × SegmentObservation} (hg : Numbered h now g) (hp : p ∈ g)
    (hordered : h.store.observations.length = h.store.maxObservations → TimeOrdered h.store)
    (hplaces : ∀ q ∈ g, q.1 < h.accepted.length)
    (hnew : h.accepted.length + 1 ≤ p.1 + h.store.maxObservations) :
    p ∈ g.drop (g.length + 1 - h.store.maxObservations) := by
  have hlength : g.length = h.store.observations.length := by rw [← hg.ring, List.length_map]
  have hcap := h.store.capped
  by_cases hfull : h.store.observations.length = h.store.maxObservations
  · have hascending := hg.ascending (hordered hfull)
    have hone : g.length + 1 - h.store.maxObservations = 1 := by omega
    rw [hone, List.drop_one]
    cases g with
    | nil => cases hp
    | cons q rest =>
      rcases List.mem_cons.mp hp with rfl | hp
      · have hroom : (rest.map Prod.fst).length + p.1 < h.accepted.length := by
          apply length_le_of_ascending
          · exact List.pairwise_map.mpr hascending
          · intro j hj
            have hplace : j ∈ (p :: rest).map Prod.fst := hj
            obtain ⟨r, hr, rfl⟩ := List.mem_map.mp hplace
            exact hplaces r hr
        rw [List.length_map] at hroom
        rw [List.length_cons] at hlength
        omega
      · exact hp
  · have hzero : g.length + 1 - h.store.maxObservations = 0 := by omega
    rw [hzero]
    exact hp

/-- A new entry takes the next place; a full ring in time order gives up the first place, behind
which the store is full of later ones. -/
theorem numbered_push {entry : SegmentObservation} (hg : Numbered h now g)
    (hentry : StandsFor entry entry) (hle : now ≤ entry.observedAt)
    (hordered : h.store.observations.length = h.store.maxObservations → TimeOrdered h.store) :
    ∃ g', Numbered ⟨h.store.push entry, h.accepted ++ [entry]⟩ entry.observedAt g' := by
  have hplaces : ∀ p ∈ g, p.1 < h.accepted.length := by
    intro p hp
    obtain ⟨o, ho, -⟩ := hg.stands p hp
    exact (List.getElem?_eq_some_iff.mp ho).1
  have hold : ∀ i o, i < h.accepted.length →
      ((h.accepted ++ [entry])[i]? = some o ↔ h.accepted[i]? = some o) := by
    intro i o hi
    rw [List.getElem?_append_left hi]
  have hlast : (h.accepted ++ [entry])[h.accepted.length]? = some entry := by simp
  have hlength : g.length = h.store.observations.length := by rw [← hg.ring, List.length_map]
  let k := g.length + 1 - h.store.maxObservations
  let all := g ++ [(h.accepted.length, entry)]
  refine ⟨all.drop k, ?_, ?_, ?_, ?_, ?_, ?_⟩
  · rw [push_observations, List.map_drop, List.map_append, hg.ring, ← hlength]
    rfl
  · intro p hp
    rcases List.mem_append.mp (List.mem_of_mem_drop hp) with hp | hp
    · obtain ⟨o, ho, hstands⟩ := hg.stands p hp
      exact ⟨o, (hold p.1 o (hplaces p hp)).mpr ho, hstands⟩
    · rw [List.mem_singleton.mp hp]
      exact ⟨entry, hlast, hentry⟩
  · have hall : all.Pairwise fun p q => p.2.observedAt = q.2.observedAt → p.1 < q.1 := by
      rw [List.pairwise_append]
      refine ⟨hg.inOrder, List.pairwise_singleton _ _, ?_⟩
      intro p hp q hq _
      rw [List.mem_singleton.mp hq]
      exact hplaces p hp
    exact hall.sublist (List.drop_sublist _ _)
  · rw [List.pairwise_append]
    refine ⟨hg.times, List.pairwise_singleton _ _, ?_⟩
    intro a ha b hb
    rw [List.mem_singleton.mp hb]
    exact (hg.past a ha).trans hle
  · intro o ho
    rcases List.mem_append.mp ho with ho | ho
    · exact (hg.past o ho).trans hle
    · rw [List.mem_singleton.mp ho]
  · intro i o hi hnew hformed hage
    have hcount : (h.accepted ++ [entry]).length = h.accepted.length + 1 := by simp
    rw [hcount] at hnew
    change h.accepted.length + 1 ≤ i + h.store.maxObservations at hnew
    change entry.observedAt - o.observedAt ≤ h.store.ttlSeconds at hage
    have hdrop : all.drop k = g.drop k ++ [(h.accepted.length, entry)] := by
      have hpositive := h.store.positive
      have hk : k ≤ g.length := by simp only [k]; omega
      exact List.drop_append_of_le_length hk
    rw [hdrop]
    have hi' := (List.getElem?_eq_some_iff.mp hi).1
    rw [hcount] at hi'
    by_cases hnewest : i = h.accepted.length
    · exact ⟨_, List.mem_append_right _ (List.mem_singleton.mpr rfl), hnewest.symm⟩
    · have hlt : i < h.accepted.length := by omega
      obtain ⟨p, hp, rfl⟩ := hg.complete i o ((hold i o hlt).mp hi) (by omega) hformed (by omega)
      refine ⟨p, List.mem_append_left _ (hg.mem_drop hp hordered hplaces ?_), rfl⟩
      omega

theorem retainsNewest_of_numbered (hg : Numbered h now g) : RetainsNewest h now := by
  intro o ho hformed hage
  obtain ⟨j, hj⟩ := List.mem_iff_getElem?.mp ho
  rw [lastEntries, List.getElem?_drop] at hj
  obtain ⟨p, hp, hplace⟩ := hg.complete _ o hj (by omega) hformed hage
  obtain ⟨o', ho', hstands⟩ := hg.stands p hp
  rw [hplace] at ho'
  obtain rfl : o = o' := Option.some.inj (hj.symm.trans ho')
  refine ⟨p.2, ?_, hstands.id, hstands.time⟩
  rw [← hg.ring]
  exact List.mem_map_of_mem hp

end Retention

section Runs

variable {ttl cap : ℤ}

def Orderly (s : SegmentObservationStore) (c : Call) : Prop := Evicts s c → TimeOrdered s

theorem run_numbered {h : History} {now : ℤ} (hrun : Run ttl cap Orderly h now) :
    ∃ g, Numbered h now g := by
  induction hrun with
  | fresh now =>
    exact ⟨[], rfl, by simp, List.Pairwise.nil, List.Pairwise.nil, by simp [History.fresh],
      by simp [History.fresh]⟩
  | @call h now c _ hle horderly ih =>
    obtain ⟨g, hg⟩ := ih
    cases c with
    | exportSnapshot t => exact numbered_export (hg.later hle)
    | record scid direction amountSats cls confidence t =>
      by_cases hbucket : 0 < bucketAmountSats amountSats
      · simp only [History.perform, record_accepted hbucket]
        refine numbered_push hg ⟨rfl, ⟨observation_id_solid _ _, ?_⟩, rfl, rfl, rfl, hbucket⟩ hle ?_
        · intro hempty
          have hchars := congrArg String.toList hempty
          simp [observation] at hchars
        · exact fun hfull => horderly ⟨hbucket, hfull⟩
      · simp only [History.perform, record_rejected (not_lt.mp hbucket)]
        exact ⟨g, by simpa using hg.later hle⟩

/-- In every run an evicting call drops the oldest entry exactly when it meets the ring in time
order; in the runs whose calls all do, the newest observations are retained. -/
theorem eviction_oldest_iff :
    (∀ (allowed : SegmentObservationStore → Call → Prop) (h : History) (now : ℤ) (c : Call),
      Run ttl cap allowed h now → now ≤ c.time → Evicts h.store c →
        (DropsOldest h c ↔ TimeOrdered h.store)) ∧
    ∀ (h : History) (now : ℤ), Run ttl cap Orderly h now → RetainsNewest h now := by
  constructor
  · intro allowed h now c hrun hle hevicts
    obtain ⟨exported, recorded, hshape⟩ := run_shaped hrun
    exact dropsOldest_iff hshape hle hevicts
  · intro h now hrun
    obtain ⟨g, hg⟩ := run_numbered hrun
    exact retainsNewest_of_numbered hg

end Runs

section Samples

def failureAt (now : ℤ) : Call := .record "100x1x0" 0 100000 "liquidity" 0.5 now

def twoRecords : History := ((History.fresh 900 2).perform (failureAt 100)).perform (failureAt 200)

theorem twoRecords_run {allowed : SegmentObservationStore → Call → Prop}
    (h : ∀ s c, allowed s c) : Run 900 2 allowed twoRecords 200 :=
  .call (.call (.fresh 100) (by decide) (h _ _)) (by decide) (h _ _)

/-- Without an export the third record drops the first. -/
theorem eviction_oldest_third : DropsOldest twoRecords (failureAt 300) :=
  (eviction_oldest_iff.1 (fun _ _ => True) twoRecords 200 (failureAt 300)
    (twoRecords_run fun _ _ => trivial) (by decide) ⟨by decide, rfl⟩).mpr (by
      change List.Pairwise _ _
      decide)

/-- After an export the third record drops the second and keeps the first. -/
theorem export_reverses_eviction :
    ¬ ∀ (h : History) (now : ℤ) (c : Call), Run 900 2 (fun _ _ => True) h now → now ≤ c.time →
      Evicts h.store c → DropsOldest h c := by
  intro hall
  let exported := twoRecords.perform (.exportSnapshot 200)
  have hrun : Run 900 2 (fun _ _ => True) exported 200 :=
    .call (twoRecords_run fun _ _ => trivial) (by decide) trivial
  obtain ⟨dropped, hheld, hmin⟩ := hall exported 200 (failureAt 300) hrun (by decide)
    ⟨by decide, by decide +kernel⟩
  have htimes : (held exported.store (failureAt 300)).map SegmentObservation.observedAt =
      [200, 100, 300] := by decide +kernel
  have hfirst : (100 : ℤ) ∈
      (held exported.store (failureAt 300)).map SegmentObservation.observedAt := by
    rw [htimes]
    decide
  obtain ⟨e, he, hage⟩ := List.mem_map.mp hfirst
  have hle := hmin e he
  rw [hheld, List.map_cons] at htimes
  have hdropped := (List.cons.inj htimes).1
  omega

end Samples

end SegmentStore
