import RevenueOps.LoopHealth

/-! Runs of several boots over the health rows: what the two generation counters promise, and
when a verdict for a boot is about what that boot did. -/
namespace LoopHealth

open KeyedTable StateMachine

/-- What a row says is in the record. An error on a boot's terminal is the boot's own, or
another boot's reconcile has closed a later pass. -/
structure Recorded (s : Session) (r : LoopHealthRow) : Prop where
  bounded : r.terminalGeneration ≤ r.generation
  begun : ∀ b, r.bootId = some b → ⟨b, r.loopId, r.generation⟩ ∈ s.begun
  passed : r.terminalStatus = .passed → ∀ b, r.terminalBootId = some b →
    ⟨r.loopId, r.terminalGeneration, .finished b⟩ ∈ s.terminals
  error : r.terminalStatus = .error → ∀ b, r.terminalBootId = some b →
    ⟨r.loopId, r.terminalGeneration, .failed b⟩ ∈ s.terminals ∨
      ∃ c, c ≠ b ∧ ⟨r.loopId, r.terminalGeneration, .reconciled c⟩ ∈ s.terminals
  boot : ∀ b, r.terminalBootId = some b → ∃ p ∈ s.begun, p.boot = b

structure Sound (s : Session) : Prop where
  recorded : ∀ r ∈ s.table.rows, Recorded s r
  closed : ∀ x ∈ s.terminals, ∃ r ∈ s.table.rows,
    r.loopId = x.loopId ∧ x.generation ≤ r.terminalGeneration
  once : s.terminals.Pairwise fun x y => x.loopId = y.loopId → x.generation ≠ y.generation

def Honest (s : Session) : Prop :=
  ∀ r ∈ s.table.rows, r.terminalStatus = .error → ∀ b, r.terminalBootId = some b →
    ⟨r.loopId, r.terminalGeneration, .failed b⟩ ∈ s.terminals

variable {s t : Session} {r : LoopHealthRow} {c : Call}

theorem Recorded.mono (h : Recorded s r) (hbegun : s.begun ⊆ t.begun)
    (hterminals : s.terminals ⊆ t.terminals) : Recorded t r where
  bounded := h.bounded
  begun b hb := hbegun (h.begun b hb)
  passed hp b hb := hterminals (h.passed hp b hb)
  error he b hb := (h.error he b hb).imp (fun hf => hterminals hf)
    fun ⟨d, hne, hd⟩ => ⟨d, hne, hterminals hd⟩
  boot b hb := by
    obtain ⟨p, hp, hpb⟩ := h.boot b hb
    exact ⟨p, hbegun hp, hpb⟩

theorem of_mem_updated {u : HealthTable} (p : LoopHealthRow → Bool)
    (f : LoopHealthRow → LoopHealthRow) (hf : ∀ r, (f r).loopId = r.loopId) {q : LoopHealthRow}
    (hq : q ∈ (u.updateWhere p f hf).rows) : ∃ r ∈ u.rows, (if p r then f r else r) = q :=
  List.mem_map.mp hq

theorem mem_updated {u : HealthTable} (p : LoopHealthRow → Bool)
    (f : LoopHealthRow → LoopHealthRow) (hf : ∀ r, (f r).loopId = r.loopId) (hr : r ∈ u.rows) :
    (if p r then f r else r) ∈ (u.updateWhere p f hf).rows :=
  List.mem_map_of_mem hr

def SameEvidence (r q : LoopHealthRow) : Prop :=
  q.loopId = r.loopId ∧ q.generation = r.generation ∧
    q.terminalGeneration = r.terminalGeneration ∧ q.terminalStatus = r.terminalStatus ∧
    q.bootId = r.bootId ∧ q.terminalBootId = r.terminalBootId

theorem SameEvidence.recorded {q : LoopHealthRow} (h : SameEvidence r q) (hr : Recorded s r) :
    Recorded s q := by
  obtain ⟨hid, hg, htg, hts, hb, htb⟩ := h
  refine ⟨by rw [hg, htg]; exact hr.bounded, ?_, ?_, ?_, ?_⟩
  · rw [hb, hid, hg]
    exact hr.begun
  · rw [hts, htb, hid, htg]
    exact hr.passed
  · rw [hts, htb, hid, htg]
    exact hr.error
  · rw [htb]
    exact hr.boot

/-- Every row of the later table has the evidence of one before, or none at all; no row is lost. -/
structure Relabels (u v : HealthTable) : Prop where
  back : ∀ q ∈ v.rows, (∃ r ∈ u.rows, SameEvidence r q) ∨
    q.generation = 0 ∧ q.terminalGeneration = 0 ∧ q.terminalStatus = .none ∧ q.bootId = none ∧
      q.terminalBootId = none
  forth : ∀ r ∈ u.rows, ∃ q ∈ v.rows, SameEvidence r q

theorem relabels_updateWhere (u : HealthTable) {p : LoopHealthRow → Bool}
    {f : LoopHealthRow → LoopHealthRow} {hf : ∀ r, (f r).loopId = r.loopId}
    (h : ∀ r, SameEvidence r (f r)) : Relabels u (u.updateWhere p f hf) := by
  have hrow : ∀ r, SameEvidence r (if p r then f r else r) := by
    intro r
    split
    · exact h r
    · exact ⟨rfl, rfl, rfl, rfl, rfl, rfl⟩
  constructor
  · intro q hq
    obtain ⟨r, hr, rfl⟩ := of_mem_updated _ f hf hq
    exact .inl ⟨r, hr, hrow r⟩
  · exact fun r hr => ⟨_, mem_updated p f hf hr, hrow r⟩

theorem relabels_registerLoop (u : HealthTable) (id : LoopId) (wiring : WiringStatus) (now : ℤ) :
    Relabels u (registerLoop u id wiring now) := by
  unfold registerLoop
  split
  · exact relabels_updateWhere u fun r => ⟨rfl, rfl, rfl, rfl, rfl, rfl⟩
  · rename_i hnone
    constructor
    · intro q hq
      rcases mem_insertOrReplace.mp hq with rfl | ⟨hq, -⟩
      · exact .inr ⟨rfl, rfl, rfl, rfl, rfl⟩
      · exact .inl ⟨q, hq, rfl, rfl, rfl, rfl, rfl, rfl⟩
    · intro r hr
      refine ⟨r, mem_insertOrReplace.mpr (.inr ⟨hr, ?_⟩), rfl, rfl, rfl, rfl, rfl, rfl⟩
      intro hid
      have hfound : u.find? id = some r := find_eq_some_iff.mpr ⟨hr, hid⟩
      exact hnone (by rw [hfound]; rfl)

theorem Relabels.sound {v : HealthTable} (h : Relabels s.table v) (hs : Sound s) :
    Sound { s with table := v } where
  recorded q hq := by
    cases h.back q hq with
    | inl hold =>
      obtain ⟨r, hr, hsame⟩ := hold
      exact (hsame.recorded (hs.recorded r hr)).mono (fun _ => id) fun _ => id
    | inr hnew =>
      obtain ⟨hg, htg, hts, hb, htb⟩ := hnew
      refine ⟨by omega, ?_, ?_, ?_, ?_⟩ <;> simp [hts, hb, htb]
  closed x hx := by
    obtain ⟨r, hr, hid, hle⟩ := hs.closed x hx
    obtain ⟨q, hq, hsame⟩ := h.forth r hr
    exact ⟨q, hq, hsame.1.trans hid, hsame.2.2.1 ▸ hle⟩
  once := hs.once

theorem Honest.of_back (hs : Honest s) (hterminals : s.terminals ⊆ t.terminals)
    (h : ∀ q ∈ t.table.rows, q.terminalBootId = none ∨ ∃ r ∈ s.table.rows,
      q.loopId = r.loopId ∧ q.terminalGeneration = r.terminalGeneration ∧
        q.terminalStatus = r.terminalStatus ∧ q.terminalBootId = r.terminalBootId) :
    Honest t := by
  intro q hq hstatus b hb
  cases h q hq with
  | inl hnone => simp [hnone] at hb
  | inr hold =>
    obtain ⟨r, hr, hid, htg, hts, htb⟩ := hold
    rw [hid, htg]
    exact hterminals (hs r hr (hts ▸ hstatus) b (htb ▸ hb))

theorem Relabels.honest {v : HealthTable} (h : Relabels s.table v) (hs : Honest s) :
    Honest { s with table := v } := by
  refine hs.of_back (List.Subset.refl _) ?_
  intro q hq
  cases h.back q hq with
  | inl hold =>
    obtain ⟨r, hr, hid, -, htg, hts, -, htb⟩ := hold
    exact .inr ⟨r, hr, hid, htg, hts, htb⟩
  | inr hnew => exact .inl hnew.2.2.2.2

section Steps

variable {id : LoopId} {generation : ℕ} {boot : String} {time : ℤ}

/-- A pass takes the next generation of its loop, and keeps the loop's terminal. -/
theorem beginLoopPass_ok {u v : HealthTable}
    (h : beginLoopPass u id boot time = .ok (generation, v)) :
    ∃ row ∈ u.rows, row.loopId = id ∧ generation = row.generation + 1 ∧
      ∃ f : LoopHealthRow → LoopHealthRow,
        (∀ r, (f r).loopId = r.loopId ∧ (f r).generation = r.generation + 1 ∧
          (f r).terminalGeneration = r.terminalGeneration ∧
          (f r).terminalStatus = r.terminalStatus ∧ (f r).bootId = some boot ∧
          (f r).terminalBootId = r.terminalBootId) ∧
        ∃ hf, v = u.updateWhere (fun r => r.loopId = id) f hf := by
  unfold beginLoopPass at h
  split at h
  · simp at h
  · rename_i row hrow
    obtain ⟨hmem, hid⟩ := find_eq_some_iff.mp hrow
    split_ifs at h
    obtain ⟨hg, hv⟩ := Prod.mk.inj (Except.ok.inj h)
    refine ⟨row, hmem, hid, hg.symm, _, ?_, _, hv.symm⟩
    exact fun r => ⟨rfl, rfl, rfl, rfl, rfl, rfl⟩

theorem eq_of_loopId {u : HealthTable} {r q : LoopHealthRow} (hr : r ∈ u.rows) (hq : q ∈ u.rows)
    (h : r.loopId = q.loopId) : r = q := List.inj_on_of_nodup_map u.nodup hr hq h

theorem sound_beginLoopPass {v : HealthTable} (hs : Sound s)
    (h : beginLoopPass s.table id boot time = .ok (generation, v)) :
    Sound { s with table := v, begun := ⟨boot, id, generation⟩ :: s.begun } := by
  obtain ⟨row, hrow, hid, hg, f, hfields, hf, rfl⟩ := beginLoopPass_ok h
  have hsub : s.begun ⊆ ⟨boot, id, generation⟩ :: s.begun := List.subset_cons_self _ _
  refine ⟨?_, ?_, hs.once⟩
  · intro q hq
    obtain ⟨r, hr, rfl⟩ := of_mem_updated _ f hf hq
    have hold := hs.recorded r hr
    split
    · rename_i hmark
      obtain rfl := eq_of_loopId hr hrow ((by simpa using hmark : r.loopId = id).trans hid.symm)
      obtain ⟨hfid, hfg, hftg, hfts, hfb, hftb⟩ := hfields r
      have hbound := hold.bounded
      refine ⟨by omega, ?_, ?_, ?_, ?_⟩
      · intro b hb
        obtain rfl := Option.some.inj (hfb.symm.trans hb)
        exact List.mem_cons.mpr (.inl (by rw [hfid, hfg, hid, hg]))
      · rw [hfts, hftb, hfid, hftg]
        exact hold.passed
      · rw [hfts, hftb, hfid, hftg]
        exact hold.error
      · intro b hb
        obtain ⟨p, hp, hpb⟩ := hold.boot b (hftb ▸ hb)
        exact ⟨p, hsub hp, hpb⟩
    · exact hold.mono hsub (List.Subset.refl _)
  · intro x hx
    obtain ⟨r, hr, hxid, hle⟩ := hs.closed x hx
    refine ⟨_, mem_updated _ f hf hr, ?_⟩
    split
    · rw [(hfields r).1, (hfields r).2.2.1]
      exact ⟨hxid, hle⟩
    · exact ⟨hxid, hle⟩

theorem honest_beginLoopPass {v : HealthTable} (hs : Honest s)
    (h : beginLoopPass s.table id boot time = .ok (generation, v)) :
    Honest { s with table := v, begun := ⟨boot, id, generation⟩ :: s.begun } := by
  obtain ⟨row, hrow, hid, hg, f, hfields, hf, rfl⟩ := beginLoopPass_ok h
  refine hs.of_back (List.Subset.refl _) ?_
  intro q hq
  obtain ⟨r, hr, rfl⟩ := of_mem_updated _ f hf hq
  refine .inr ⟨r, hr, ?_⟩
  split
  · obtain ⟨hfid, -, hftg, hfts, -, hftb⟩ := hfields r
    exact ⟨hfid, hftg, hfts, hftb⟩
  · exact ⟨rfl, rfl, rfl, rfl⟩

theorem terminalUpdate_ok {u v : HealthTable} {error : Option String}
    (h : terminalUpdate u id generation boot time error = .ok v) :
    ∃ row ∈ u.rows, awaits id generation row = true ∧ ∃ f : LoopHealthRow → LoopHealthRow,
      (∀ r, (f r).loopId = r.loopId ∧ (f r).generation = r.generation ∧
        (f r).terminalGeneration = generation ∧ (f r).bootId = r.bootId ∧
        (f r).terminalBootId = some boot ∧
        (f r).terminalStatus = if error.isSome then .error else .passed) ∧
      ∃ hf, v = u.updateWhere (awaits id generation) f hf := by
  unfold terminalUpdate at h
  split_ifs at h with hrange hany
  obtain ⟨row, hrow, hawaits⟩ := List.any_eq_true.mp hany
  refine ⟨row, hrow, hawaits, ?_⟩
  cases error with
  | none =>
    simp only [Except.ok.injEq] at h
    refine ⟨_, ?_, _, h.symm⟩
    exact fun r => ⟨rfl, rfl, rfl, rfl, rfl, rfl⟩
  | some e =>
    simp only [Except.ok.injEq] at h
    refine ⟨_, ?_, _, h.symm⟩
    exact fun r => ⟨rfl, rfl, rfl, rfl, rfl, rfl⟩

def endingOf (error : Option String) (boot : String) : Ending :=
  if error.isSome then .failed boot else .finished boot

theorem sound_terminalUpdate {v : HealthTable} {error : Option String} (hs : Sound s)
    (hbegun : ⟨boot, id, generation⟩ ∈ s.begun)
    (h : terminalUpdate s.table id generation boot time error = .ok v) :
    Sound { s with
      table := v, terminals := ⟨id, generation, endingOf error boot⟩ :: s.terminals } := by
  obtain ⟨row, hrow, hawaits, f, hfields, hf, rfl⟩ := terminalUpdate_ok h
  have hmarked : ∀ r, awaits id generation r = true ↔
      r.loopId = id ∧ r.generation = generation ∧ r.terminalGeneration < generation := by
    simp [awaits]
  obtain ⟨hid, hg, hlt⟩ := (hmarked row).mp hawaits
  have hsub : s.terminals ⊆ ⟨id, generation, endingOf error boot⟩ :: s.terminals :=
    List.subset_cons_self _ _
  refine ⟨?_, ?_, ?_⟩
  · intro q hq
    obtain ⟨r, hr, rfl⟩ := of_mem_updated _ f hf hq
    have hold := hs.recorded r hr
    split
    · rename_i hmark
      obtain ⟨hrid, hrg, -⟩ := (hmarked r).mp hmark
      obtain ⟨hfid, hfg, hftg, hfb, hftb, hfts⟩ := hfields r
      refine ⟨by omega, ?_, ?_, ?_, ?_⟩
      · intro b hb
        rw [hfid, hfg]
        exact hold.begun b (hfb ▸ hb)
      · intro hstatus b hb
        obtain rfl := Option.some.inj (hftb.symm.trans hb)
        cases error with
        | none => exact List.mem_cons.mpr (.inl (by rw [hfid, hftg, hrid]; rfl))
        | some e => simp [hfts] at hstatus
      · intro hstatus b hb
        obtain rfl := Option.some.inj (hftb.symm.trans hb)
        cases error with
        | none => simp [hfts] at hstatus
        | some e => exact .inl (List.mem_cons.mpr (.inl (by rw [hfid, hftg, hrid]; rfl)))
      · intro b hb
        obtain rfl := Option.some.inj (hftb.symm.trans hb)
        exact ⟨_, hbegun, rfl⟩
    · exact hold.mono (List.Subset.refl _) hsub
  · intro x hx
    rw [List.mem_cons] at hx
    cases hx with
    | inl hx =>
      subst hx
      refine ⟨_, mem_updated _ f hf hrow, ?_⟩
      rw [if_pos hawaits, (hfields row).1, (hfields row).2.2.1]
      exact ⟨hid, le_refl _⟩
    | inr hx =>
      obtain ⟨r, hr, hxid, hle⟩ := hs.closed x hx
      refine ⟨_, mem_updated _ f hf hr, ?_⟩
      split
      · rename_i hmark
        obtain ⟨-, -, hrlt⟩ := (hmarked r).mp hmark
        rw [(hfields r).1, (hfields r).2.2.1]
        exact ⟨hxid, by omega⟩
      · exact ⟨hxid, hle⟩
  · refine List.pairwise_cons.mpr ⟨?_, hs.once⟩
    intro x hx hxid
    obtain ⟨r, hr, hrid, hle⟩ := hs.closed x hx
    obtain rfl := eq_of_loopId hr hrow (hrid.trans (hxid.symm.trans hid.symm))
    simp only
    omega

theorem honest_terminalUpdate {v : HealthTable} {error : Option String} (hs : Honest s)
    (h : terminalUpdate s.table id generation boot time error = .ok v) :
    Honest { s with
      table := v, terminals := ⟨id, generation, endingOf error boot⟩ :: s.terminals } := by
  obtain ⟨row, hrow, hawaits, f, hfields, hf, rfl⟩ := terminalUpdate_ok h
  intro q hq hstatus b hb
  obtain ⟨r, hr, rfl⟩ := of_mem_updated _ f hf hq
  by_cases hmark : awaits id generation r = true
  · rw [if_pos hmark] at hstatus hb ⊢
    obtain ⟨hfid, -, hftg, -, hftb, hfts⟩ := hfields r
    obtain rfl := Option.some.inj (hftb.symm.trans hb)
    have hrid : r.loopId = id := by
      have hall : r.loopId = id ∧ r.generation = generation ∧
          r.terminalGeneration < generation := by
        simpa [awaits] using hmark
      exact hall.1
    cases error with
    | none => simp [hfts] at hstatus
    | some e => exact List.mem_cons.mpr (.inl (by rw [hfid, hftg, hrid]; rfl))
  · rw [if_neg hmark] at hstatus hb ⊢
    exact List.mem_cons_of_mem _ (hs r hr hstatus b hb)

theorem reconcile_table (u : HealthTable) (now : ℤ) :
    ∃ f : LoopHealthRow → LoopHealthRow,
      (∀ r, (f r).loopId = r.loopId ∧ (f r).generation = r.generation ∧
        (f r).terminalGeneration = r.generation ∧ (f r).terminalStatus = .error ∧
        (f r).bootId = r.bootId ∧ (f r).terminalBootId = r.terminalBootId) ∧
      ∃ hf, (reconcileIncompleteOnRestart u now).2 = u.updateWhere incomplete f hf := by
  refine ⟨_, ?_, by exact fun _ => rfl, rfl⟩
  exact fun r => ⟨rfl, rfl, rfl, rfl, rfl, rfl⟩

theorem incomplete_iff : incomplete r = true ↔ r.terminalGeneration < r.generation := by
  simp [incomplete]

theorem sound_reconcile (hs : Sound s) (hboot : ∀ p ∈ s.begun, p.boot ≠ boot) :
    Sound (step s (.reconcileIncompleteOnRestart boot time)) := by
  obtain ⟨f, hfields, hf, htable⟩ := reconcile_table s.table time
  have hnext : step s (.reconcileIncompleteOnRestart boot time) =
      { s with
        table := s.table.updateWhere incomplete f hf
        terminals := (s.table.rows.filter incomplete).map
          (fun r => ⟨r.loopId, r.generation, .reconciled boot⟩) ++ s.terminals } := by
    rw [← htable]
    rfl
  rw [hnext]
  refine ⟨?_, ?_, ?_⟩
  · intro q hq
    obtain ⟨r, hr, rfl⟩ := of_mem_updated _ f hf hq
    have hold := hs.recorded r hr
    split
    · rename_i hopen
      obtain ⟨hfid, hfg, hftg, hfts, hfb, hftb⟩ := hfields r
      refine ⟨by omega, ?_, by simp [hfts], ?_, ?_⟩
      · rw [hfid, hfg, hfb]
        exact hold.begun
      · intro _ b hb
        obtain ⟨p, hp, rfl⟩ := hold.boot b (hftb ▸ hb)
        refine .inr ⟨boot, (hboot p hp).symm, List.mem_append_left _ ?_⟩
        rw [hfid, hftg]
        exact List.mem_map.mpr ⟨r, List.mem_filter.mpr ⟨hr, hopen⟩, rfl⟩
      · rw [hftb]
        exact hold.boot
    · exact hold.mono (List.Subset.refl _) (List.subset_append_right _ _)
  · intro x hx
    rw [List.mem_append, List.mem_map] at hx
    cases hx with
    | inl hnew =>
      obtain ⟨r, hr, rfl⟩ := hnew
      obtain ⟨hr, hopen⟩ := List.mem_filter.mp hr
      refine ⟨_, mem_updated _ f hf hr, ?_⟩
      rw [if_pos hopen, (hfields r).1, (hfields r).2.2.1]
      exact ⟨rfl, le_refl _⟩
    | inr hold =>
      obtain ⟨r, hr, hxid, hle⟩ := hs.closed x hold
      refine ⟨_, mem_updated _ f hf hr, ?_⟩
      split
      · rw [(hfields r).1, (hfields r).2.2.1]
        have hbound := (hs.recorded r hr).bounded
        exact ⟨hxid, by omega⟩
      · exact ⟨hxid, hle⟩
  · refine List.pairwise_append.mpr ⟨?_, hs.once, ?_⟩
    · have hrows : s.table.rows.Pairwise fun r q => r.loopId ≠ q.loopId :=
        List.pairwise_map.mp s.table.nodup
      exact List.pairwise_map.mpr ((hrows.filter _).imp fun hne hid => absurd hid hne)
    · intro x hx y hy hid
      obtain ⟨r, hr, rfl⟩ := List.mem_map.mp hx
      obtain ⟨hr, hopen⟩ := List.mem_filter.mp hr
      obtain ⟨q, hq, hqid, hle⟩ := hs.closed y hy
      obtain rfl := eq_of_loopId hq hr (hqid.trans hid.symm)
      have hlt := incomplete_iff.mp hopen
      simp only
      omega

theorem honest_reconcile (hs : Honest s)
    (huntouched : ∀ r ∈ s.table.rows, incomplete r = true → r.terminalBootId = none) :
    Honest (step s (.reconcileIncompleteOnRestart boot time)) := by
  obtain ⟨f, hfields, hf, htable⟩ := reconcile_table s.table time
  refine hs.of_back (List.subset_append_right _ _) ?_
  intro q hq
  have hmem : q ∈ (s.table.updateWhere incomplete f hf).rows := htable ▸ hq
  obtain ⟨r, hr, rfl⟩ := of_mem_updated _ f hf hmem
  split
  · rename_i hopen
    exact .inl ((hfields r).2.2.2.2.2.trans (huntouched r hr hopen))
  · exact .inr ⟨r, hr, rfl, rfl, rfl, rfl⟩

end Steps

theorem relabels_suspendLoop {u v : HealthTable} {id : LoopId} {time : ℤ} {reason : String}
    (h : suspendLoop u id time reason = .ok v) : Relabels u v := by
  unfold suspendLoop at h
  split_ifs at h
  rw [← Except.ok.inj h]
  exact relabels_updateWhere u fun r => ⟨rfl, rfl, rfl, rfl, rfl, rfl⟩

theorem relabels_incrementLoopBackpressure {u v : HealthTable} {id : LoopId}
    {coalesced dropped : ℕ} {now : ℤ}
    (h : incrementLoopBackpressure u id coalesced dropped now = .ok v) : Relabels u v := by
  unfold incrementLoopBackpressure at h
  split_ifs at h
  rw [← Except.ok.inj h]
  exact relabels_updateWhere u fun r => ⟨rfl, rfl, rfl, rfl, rfl, rfl⟩

theorem sound_step (hs : Sound s) (hc : Permitted s c) : Sound (step s c) := by
  cases c with
  | registerLoop id wiring now => exact (relabels_registerLoop s.table id wiring now).sound hs
  | beginLoopPass id boot now =>
    simp only [step]
    split
    · rename_i hbegin
      exact sound_beginLoopPass hs hbegin
    · exact hs
  | finishLoopPass id generation boot time =>
    simp only [step]
    split
    · rename_i hfinish
      exact sound_terminalUpdate hs hc hfinish
    · exact hs
  | failLoopPass id generation boot time error =>
    simp only [step]
    split
    · rename_i hfail
      exact sound_terminalUpdate hs hc hfail
    · exact hs
  | suspendLoop id time reason =>
    simp only [step]
    split
    · rename_i hsuspend
      exact (relabels_suspendLoop hsuspend).sound hs
    · exact hs
  | incrementLoopBackpressure id coalesced dropped now =>
    simp only [step]
    split
    · rename_i hincrement
      exact (relabels_incrementLoopBackpressure hincrement).sound hs
    · exact hs
  | reconcileIncompleteOnRestart boot now => exact sound_reconcile hs hc

theorem honest_step (hs : Honest s) (hc : Untouched s c) : Honest (step s c) := by
  cases c with
  | registerLoop id wiring now => exact (relabels_registerLoop s.table id wiring now).honest hs
  | beginLoopPass id boot now =>
    simp only [step]
    split
    · rename_i hbegin
      exact honest_beginLoopPass hs hbegin
    · exact hs
  | finishLoopPass id generation boot time =>
    simp only [step]
    split
    · rename_i hfinish
      exact honest_terminalUpdate hs hfinish
    · exact hs
  | failLoopPass id generation boot time error =>
    simp only [step]
    split
    · rename_i hfail
      exact honest_terminalUpdate hs hfail
    · exact hs
  | suspendLoop id time reason =>
    simp only [step]
    split
    · rename_i hsuspend
      exact (relabels_suspendLoop hsuspend).honest hs
    · exact hs
  | incrementLoopBackpressure id coalesced dropped now =>
    simp only [step]
    split
    · rename_i hincrement
      exact (relabels_incrementLoopBackpressure hincrement).honest hs
    · exact hs
  | reconcileIncompleteOnRestart boot now => exact honest_reconcile hs hc

def Grows (u v : HealthTable) : Prop :=
  ∀ r ∈ u.rows, ∃ q ∈ v.rows, q.loopId = r.loopId ∧ r.generation ≤ q.generation

theorem Grows.refl (u : HealthTable) : Grows u u := fun r hr => ⟨r, hr, rfl, le_refl _⟩

theorem Relabels.grows {u v : HealthTable} (h : Relabels u v) : Grows u v := by
  intro r hr
  obtain ⟨q, hq, hid, hg, -⟩ := h.forth r hr
  exact ⟨q, hq, hid, hg.ge⟩

theorem grows_updateWhere (u : HealthTable) (p : LoopHealthRow → Bool)
    (f : LoopHealthRow → LoopHealthRow) (hf : ∀ r, (f r).loopId = r.loopId)
    (h : ∀ r, r.generation ≤ (f r).generation) : Grows u (u.updateWhere p f hf) := by
  intro r hr
  refine ⟨_, mem_updated p f hf hr, ?_⟩
  split
  · exact ⟨hf r, h r⟩
  · exact ⟨rfl, le_refl _⟩

theorem grows_terminalUpdate {u v : HealthTable} {id : LoopId} {generation : ℕ} {boot : String}
    {time : ℤ} {error : Option String}
    (h : terminalUpdate u id generation boot time error = .ok v) : Grows u v := by
  obtain ⟨-, -, -, f, hfields, hf, rfl⟩ := terminalUpdate_ok h
  exact grows_updateWhere u _ f hf fun r => (hfields r).2.1.ge

theorem grows_step (s : Session) (c : Call) : Grows s.table (step s c).table := by
  cases c with
  | registerLoop id wiring now => exact (relabels_registerLoop s.table id wiring now).grows
  | beginLoopPass id boot now =>
    simp only [step]
    split
    · rename_i hbegin
      obtain ⟨-, -, -, -, f, hfields, hf, rfl⟩ := beginLoopPass_ok hbegin
      refine grows_updateWhere s.table _ f hf fun r => ?_
      have hnext := (hfields r).2.1
      omega
    · exact .refl _
  | finishLoopPass id generation boot time =>
    simp only [step]
    split
    · rename_i hfinish
      exact grows_terminalUpdate hfinish
    · exact .refl _
  | failLoopPass id generation boot time error =>
    simp only [step]
    split
    · rename_i hfail
      exact grows_terminalUpdate hfail
    · exact .refl _
  | suspendLoop id time reason =>
    simp only [step]
    split
    · rename_i hsuspend
      exact (relabels_suspendLoop hsuspend).grows
    · exact .refl _
  | incrementLoopBackpressure id coalesced dropped now =>
    simp only [step]
    split
    · rename_i hincrement
      exact (relabels_incrementLoopBackpressure hincrement).grows
    · exact .refl _
  | reconcileIncompleteOnRestart boot now =>
    obtain ⟨f, hfields, hf, htable⟩ := reconcile_table s.table now
    have hgrows := grows_updateWhere s.table incomplete f hf fun r => (hfields r).2.1.ge
    rw [← htable] at hgrows
    exact hgrows

/-- The generation is not the loop's latest, or has its terminal. -/
def Stale (t : HealthTable) (id : LoopId) (generation : ℕ) : Prop :=
  ∀ r ∈ t.rows, r.loopId = id → generation ≠ r.generation ∨ generation ≤ r.terminalGeneration

theorem terminalUpdate_stale {u : HealthTable} {id : LoopId} {generation : ℕ}
    (h : Stale u id generation) (boot : String) (time : ℤ) (error : Option String) :
    ∃ e, terminalUpdate u id generation boot time error = .error e := by
  unfold terminalUpdate
  split
  · exact ⟨_, rfl⟩
  · rw [if_neg]
    · exact ⟨_, rfl⟩
    · intro hany
      obtain ⟨r, hr, hawaits⟩ := List.any_eq_true.mp hany
      have hall : r.loopId = id ∧ r.generation = generation ∧
          r.terminalGeneration < generation := by
        simpa [awaits] using hawaits
      cases h r hr hall.1 with
      | inl hne => exact hne hall.2.1.symm
      | inr hle => omega

theorem step_stale {id : LoopId} {generation : ℕ} (h : Stale s.table id generation)
    (boot : String) (time : ℤ) (error : String) :
    step s (.finishLoopPass id generation boot time) = s ∧
      step s (.failLoopPass id generation boot time error) = s := by
  obtain ⟨e, he⟩ := terminalUpdate_stale h boot time none
  obtain ⟨e', he'⟩ := terminalUpdate_stale h boot time (some (boundedError error))
  simp only [step, finishLoopPass, failLoopPass, he, he', and_self]

structure Counted (s : Session) : Prop where
  bounded : ∀ r ∈ s.table.rows, r.terminalGeneration ≤ r.generation
  once : s.terminals.Pairwise fun x y => x.loopId = y.loopId → x.generation ≠ y.generation
  grows : ∀ c, Grows s.table (step s c).table
  stale : ∀ id generation, Stale s.table id generation → ∀ boot time error,
    step s (.finishLoopPass id generation boot time) = s ∧
      step s (.failLoopPass id generation boot time error) = s

structure Owned (s : Session) : Prop where
  passed : ∀ r ∈ s.table.rows, ∀ b, currentBootStatus r b = .passed →
    ⟨r.loopId, r.generation, .finished b⟩ ∈ s.terminals
  error : ∀ r ∈ s.table.rows, ∀ b, currentBootStatus r b = .error →
    ⟨r.loopId, r.generation, .failed b⟩ ∈ s.terminals
  incomplete : ∀ r ∈ s.table.rows, ∀ b, currentBootStatus r b = .incomplete →
    ⟨b, r.loopId, r.generation⟩ ∈ s.begun

theorem Sound.counted (h : Sound s) : Counted s where
  bounded r hr := (h.recorded r hr).bounded
  once := h.once
  grows := grows_step s
  stale _ _ hstale boot time error := step_stale hstale boot time error

theorem Sound.generation (h : Sound s) (hr : r ∈ s.table.rows)
    (hclosed : r.generation ≤ r.terminalGeneration) : r.generation = r.terminalGeneration :=
  le_antisymm hclosed (h.recorded r hr).bounded

/-- Without a reconcile in between, an error is the boot's own too. -/
theorem Sound.owned (h : Sound s) (hhonest : Honest s) : Owned s where
  passed r hr b hstatus := by
    obtain ⟨hclosed, hboot, hpassed, -⟩ := terminal_verdict hstatus (.inl rfl)
    rw [h.generation hr hclosed]
    exact (h.recorded r hr).passed (hpassed rfl) b hboot
  error r hr b hstatus := by
    obtain ⟨hclosed, hboot, -, herror⟩ := terminal_verdict hstatus (.inr rfl)
    rw [h.generation hr hclosed]
    exact hhonest r hr (herror rfl) b hboot
  incomplete r hr b hstatus := (h.recorded r hr).begun b (incomplete_verdict hstatus)

theorem sound_start : Sound startSession := by
  refine ⟨?_, ?_, List.Pairwise.nil⟩ <;> simp [startSession, Table.empty]

theorem honest_start : Honest startSession := by simp [Honest, startSession, Table.empty]

/-- In every run of the boots the counters keep their promise, and an error that a boot did not
record itself is on a pass that another boot's reconcile has closed. -/
theorem error_attributed {calls : List Call}
    (h : loops.Follows (fun _ _ => True) startSession calls) :
    Counted (loops.run startSession calls) ∧
      ∀ r ∈ (loops.run startSession calls).table.rows, ∀ b, currentBootStatus r b = .error →
        ⟨r.loopId, r.generation, .failed b⟩ ∈ (loops.run startSession calls).terminals ∨
          ∃ c, c ≠ b ∧
            ⟨r.loopId, r.generation, .reconciled c⟩ ∈ (loops.run startSession calls).terminals := by
  have hsound : Sound (loops.run startSession calls) :=
    h.invariant sound_start fun _ _ ht hc _ => sound_step ht hc
  refine ⟨hsound.counted, ?_⟩
  intro r hr b hstatus
  obtain ⟨hclosed, hboot, -, herror⟩ := terminal_verdict hstatus (.inr rfl)
  rw [hsound.generation hr hclosed]
  exact (hsound.recorded r hr).error (herror rfl) b hboot

/-- Where no reconcile closes a pass of a loop that has a boot's terminal, no boot's verdict is
about another boot's pass. -/
theorem verdicts_not_inherited (calls : List Call)
    (h : loops.Follows Untouched startSession calls) :
    Counted (loops.run startSession calls) ∧ Owned (loops.run startSession calls) := by
  have hboth : Sound (loops.run startSession calls) ∧ Honest (loops.run startSession calls) := by
    refine h.invariant (I := fun t => Sound t ∧ Honest t) ⟨sound_start, honest_start⟩ ?_
    intro t c ht hc huntouched
    exact ⟨sound_step ht.1 hc, honest_step ht.2 huntouched⟩
  exact ⟨hboth.1.counted, hboth.1.owned hboth.2⟩

def restartCalls : List Call :=
  [.registerLoop .fee .ready 10, .beginLoopPass .fee "boot-a" 20,
    .reconcileIncompleteOnRestart "boot-b" 30, .beginLoopPass .fee "boot-b" 40,
    .finishLoopPass .fee 2 "boot-b" 50]

theorem restart_not_inherited :
    Counted (loops.run startSession restartCalls) ∧ Owned (loops.run startSession restartCalls) :=
  verdicts_not_inherited restartCalls (by decide)

def crashCalls : List Call :=
  [.registerLoop .fee .ready 10, .beginLoopPass .fee "boot-a" 20,
    .finishLoopPass .fee 1 "boot-a" 30, .beginLoopPass .fee "boot-a" 40,
    .reconcileIncompleteOnRestart "boot-b" 50]

theorem crash_counted : Counted (loops.run startSession crashCalls) :=
  (error_attributed (by decide)).1

/-- For a boot that has passed once, the next boot's reconcile of its second pass is an error. -/
theorem reconcile_inherited :
    ¬ ∀ calls, loops.Follows (fun _ _ => True) startSession calls →
      Counted (loops.run startSession calls) ∧ Owned (loops.run startSession calls) := by
  intro h
  have howned := (h crashCalls (by decide)).2
  have hfailed : ∀ r ∈ (loops.run startSession crashCalls).table.rows,
      currentBootStatus r "boot-a" = .error →
        ⟨r.loopId, r.generation, .failed "boot-a"⟩ ∈
          (loops.run startSession crashCalls).terminals :=
    fun r hr => howned.error r hr "boot-a"
  exact absurd hfailed (by decide)

end LoopHealth
