import RevenueOps.KeyedTable
import RevenueOps.StableSelection
import RevenueOps.RustNumber
import Mathlib.Data.Prod.Lex

/-! The sweep of the windowed evidence tables: batches of the oldest eligible rows, offered to
the tables in turn until enough batches were deleted or a whole round found nothing.
Every statement is taken to succeed. -/
namespace RetentionSweep

open KeyedTable StableSelection RustNumber

inductive SweepTarget where
  | shadowOutcomes
  | triggerEvents
  | mempoolMaComparison
  | snapshots
  deriving DecidableEq, Repr

/-- The targets in their order, which the cursor counts. -/
def SweepTarget.ordered : Fin 4 → SweepTarget
  | 0 => .shadowOutcomes
  | 1 => .triggerEvents
  | 2 => .mempoolMaComparison
  | 3 => .snapshots

def SweepTarget.place : SweepTarget → Fin 4
  | .shadowOutcomes => 0
  | .triggerEvents => 1
  | .mempoolMaComparison => 2
  | .snapshots => 3

@[simp] theorem ordered_place (t : SweepTarget) : SweepTarget.ordered t.place = t := by
  cases t <;> rfl

@[simp] theorem place_ordered (i : Fin 4) : (SweepTarget.ordered i).place = i := by
  revert i
  decide

/-- The id and the time column of a row; both are INTEGER columns. -/
structure EvidenceRow where
  id : ℤ
  key : ℤ
  inI64 : InI64 key
  deriving DecidableEq

abbrev EvidenceTable := Table EvidenceRow ℤ EvidenceRow.id

abbrev Tables := SweepTarget → EvidenceTable

def runwayEvidenceRetentionSeconds : ℤ := 30 * 86400

def snapshotKeepLast : ℕ := 90

def retentionBatchRows : ℕ := 500

def retentionMaxBatchesPerSweep : ℕ := 8

def keptSnapshots (t : EvidenceTable) : List EvidenceRow :=
  (sortByKey (fun r => -r.id) t.rows).take snapshotKeepLast

def eligible (target : SweepTarget) (horizon : ℤ) (t : EvidenceTable) (r : EvidenceRow) : Bool :=
  match target with
  | .snapshots => r.id ∉ (keptSnapshots t).map EvidenceRow.id
  | _ => r.key < horizon

/-- The ORDER BY of a target's statement: the time and the id, or the id alone. -/
def age (target : SweepTarget) (r : EvidenceRow) : ℤ ×ₗ ℤ :=
  match target with
  | .snapshots => toLex (r.id, 0)
  | _ => toLex (r.key, r.id)

def selected (target : SweepTarget) (horizon : ℤ) (t : EvidenceTable) : List EvidenceRow :=
  (sortByKey (age target) (t.rows.filter (eligible target horizon t))).take retentionBatchRows

/-- Deletes at most one batch, and returns how many rows it was. -/
def sweepOneBatch (t : EvidenceTable) (target : SweepTarget) (horizon : ℤ) : ℕ × EvidenceTable :=
  let ids := (selected target horizon t).map EvidenceRow.id
  (t.rows.countP fun r => r.id ∈ ids, t.deleteWhere fun r => r.id ∈ ids)

structure RetentionReport where
  deleted : SweepTarget → Option ℕ
  truncated : Bool
  batches : ℕ
  nextCursor : ℕ

/-- The sweep between two offers, and what every offer so far deleted, the latest first. -/
structure Sweep where
  tables : Tables
  report : RetentionReport
  index : Fin 4
  emptyInRound : ℕ
  visits : List (SweepTarget × ℕ)

def offer (horizon : ℤ) (s : Sweep) : Sweep :=
  let target := SweepTarget.ordered s.index
  let swept := sweepOneBatch (s.tables target) target horizon
  { tables := Function.update s.tables target swept.2
    report :=
      if swept.1 = 0 then s.report
      else { s.report with
        batches := s.report.batches + 1
        deleted := Function.update s.report.deleted target
          (some ((s.report.deleted target).getD 0 + swept.1))
        nextCursor := (s.index + 1).val }
    index := s.index + 1
    emptyInRound := if swept.1 = 0 then s.emptyInRound + 1 else 0
    visits := (target, swept.1) :: s.visits }

/-- Every offer adds a batch or an empty visit, and both are limited. -/
def sweepLoop (horizon : ℤ) (s : Sweep) : Sweep :=
  if s.report.batches < retentionMaxBatchesPerSweep ∧ s.emptyInRound < 4 then
    sweepLoop horizon (offer horizon s)
  else s
termination_by (retentionMaxBatchesPerSweep - s.report.batches, 4 - s.emptyInRound)
decreasing_by
  rename_i h
  obtain ⟨hbatches, hempty⟩ := h
  by_cases hzero : (sweepOneBatch (s.tables (SweepTarget.ordered s.index))
      (SweepTarget.ordered s.index) horizon).1 = 0
  · simp only [offer, hzero, if_true]
    exact Prod.Lex.right _ (by omega)
  · simp only [offer, hzero, if_false]
    exact Prod.Lex.left _ _ (by omega)

def startSweep (tables : Tables) (cursor : ℕ) : Sweep :=
  { tables
    report := ⟨fun _ => none, false, 0, cursor⟩
    index := Fin.ofNat 4 cursor
    emptyInRound := 0
    visits := [] }

def horizonAt (now : ℤ) : ℤ := max (now - runwayEvidenceRetentionSeconds) (-2 ^ 63)

def runRetentionSweep (tables : Tables) (now : ℤ) (cursor : ℕ) : Sweep :=
  let s := sweepLoop (horizonAt now) (startSweep tables cursor)
  { s with report := { s.report with
      truncated := s.report.batches = retentionMaxBatchesPerSweep } }

section Batch

variable {target : SweepTarget} {horizon : ℤ} {t u v : EvidenceTable} {r q : EvidenceRow}

theorem eq_of_id (hr : r ∈ t.rows) (hq : q ∈ t.rows) (h : r.id = q.id) : r = q :=
  List.inj_on_of_nodup_map t.nodup hr hq h

theorem id_eq_of_age (h : age target r = age target q) : r.id = q.id := by
  cases target with
  | snapshots => exact congrArg (fun p => (ofLex p).1) h
  | _ => exact congrArg (fun p => (ofLex p).2) h

theorem mem_selected (h : r ∈ selected target horizon t) :
    r ∈ t.rows ∧ eligible target horizon t r = true := by
  have hmem := (perm_sortByKey _).mem_iff.mp (List.mem_of_mem_take h)
  exact List.mem_filter.mp hmem

theorem id_mem_selected (hr : r ∈ t.rows)
    (h : r.id ∈ (selected target horizon t).map EvidenceRow.id) :
    r ∈ selected target horizon t := by
  obtain ⟨q, hq, hid⟩ := List.mem_map.mp h
  obtain rfl := eq_of_id (mem_selected hq).1 hr hid
  exact hq

theorem mem_sweepOneBatch : r ∈ (sweepOneBatch t target horizon).2.rows ↔
    r ∈ t.rows ∧ r ∉ selected target horizon t := by
  simp only [sweepOneBatch, Table.deleteWhere, List.mem_filter, Bool.not_eq_true',
    decide_eq_false_iff_not]
  refine and_congr_right fun hr => not_congr ⟨id_mem_selected hr, ?_⟩
  exact fun h => List.mem_map_of_mem h

theorem age_lt_of_selected (hr : r ∈ selected target horizon t) (hq : q ∈ t.rows)
    (helig : eligible target horizon t q = true) (hleft : q ∉ selected target horizon t) :
    age target r < age target q := by
  let sorted := sortByKey (age target) (t.rows.filter (eligible target horizon t))
  have hmem : q ∈ sorted := (perm_sortByKey _).mem_iff.mpr (List.mem_filter.mpr ⟨hq, helig⟩)
  have hsplit : sorted.take retentionBatchRows ++ sorted.drop retentionBatchRows = sorted :=
    List.take_append_drop _ _
  have hrest : q ∈ sorted.drop retentionBatchRows := by
    rw [← hsplit, List.mem_append] at hmem
    exact hmem.resolve_left hleft
  have hsorted : sorted.Pairwise fun a b => age target a ≤ age target b := pairwise_sortByKey _
  rw [← hsplit, List.pairwise_append] at hsorted
  refine lt_of_le_of_ne (hsorted.2.2 r hr q hrest) ?_
  intro hage
  obtain rfl := eq_of_id (mem_selected hr).1 hq (id_eq_of_age hage)
  exact hleft hr

theorem take_filter {α : Type} {l : List α} {p : α → Bool} {n : ℕ}
    (h : ∀ x ∈ l.take n, p x = true) : (l.filter p).take n = l.take n := by
  have hfront : (l.take n).filter p = l.take n := List.filter_eq_self.mpr h
  have hsplit : l.filter p = l.take n ++ (l.drop n).filter p := by
    conv_lhs => rw [← List.take_append_drop n l, List.filter_append, hfront]
  rw [hsplit]
  by_cases hlen : n ≤ l.length
  · exact List.take_left' (List.length_take_of_le hlen)
  · rw [List.drop_of_length_le (by omega), List.filter_nil, List.append_nil,
      List.take_of_length_le (by simp)]

theorem sortByKey_filter {α κ : Type} [LinearOrder κ] {key : α → κ} {l : List α} (p : α → Bool)
    (h : ∀ a ∈ l, ∀ b ∈ l, key a = key b → a = b) :
    sortByKey key (l.filter p) = (sortByKey key l).filter p := by
  have hperm : (sortByKey key (l.filter p)).Perm ((sortByKey key l).filter p) :=
    (perm_sortByKey _).trans ((perm_sortByKey l).symm.filter p)
  refine eq_of_perm_of_separated hperm (pairwise_sortByKey _)
    ((pairwise_sortByKey l).filter p) ?_
  have hmem : ∀ a ∈ sortByKey key (l.filter p), a ∈ l := fun a ha =>
    (List.mem_filter.mp ((perm_sortByKey _).mem_iff.mp ha)).1
  exact fun a ha b hb hab => h a (hmem a ha) b (hmem b hb) hab

/-- Rows that are not among the newest may go: the newest stay the same. -/
theorem keptSnapshots_deleteWhere {p : EvidenceRow → Bool}
    (h : ∀ r ∈ keptSnapshots t, p r = false) :
    keptSnapshots (t.deleteWhere p) = keptSnapshots t := by
  have hsort : sortByKey (fun r : EvidenceRow => -r.id) (t.deleteWhere p).rows =
      (sortByKey (fun r => -r.id) t.rows).filter fun r => !p r := by
    refine sortByKey_filter _ ?_
    intro a ha b hb hab
    exact eq_of_id ha hb (by omega)
  rw [keptSnapshots, hsort]
  refine take_filter ?_
  intro r hr
  simp [h r hr]

structure Swept (target : SweepTarget) (horizon : ℤ) (t u : EvidenceTable) : Prop where
  part : u.rows.Sublist t.rows
  eligible : ∀ r, eligible target horizon u r = eligible target horizon t r
  gone : ∀ r ∈ t.rows, r ∉ u.rows → RetentionSweep.eligible target horizon t r = true
  older : ∀ r ∈ t.rows, r ∉ u.rows → ∀ q ∈ u.rows,
    RetentionSweep.eligible target horizon t q = true → age target r < age target q

theorem Swept.refl (t : EvidenceTable) : Swept target horizon t t :=
  ⟨List.Sublist.refl _, fun _ => rfl, fun _ h h' => absurd h h', fun _ h h' => absurd h h'⟩

theorem Swept.trans (h : Swept target horizon t u) (k : Swept target horizon u v) :
    Swept target horizon t v where
  part := k.part.trans h.part
  eligible r := (k.eligible r).trans (h.eligible r)
  gone r hr hgone := by
    by_cases hu : r ∈ u.rows
    · exact (h.eligible r).symm.trans (k.gone r hu hgone)
    · exact h.gone r hr hu
  older r hr hgone q hq helig := by
    by_cases hu : r ∈ u.rows
    · exact k.older r hu hgone q hq ((h.eligible q).trans helig)
    · exact h.older r hr hu q (k.part.subset hq) helig

theorem swept_sweepOneBatch (t : EvidenceTable) (target : SweepTarget) (horizon : ℤ) :
    Swept target horizon t (sweepOneBatch t target horizon).2 where
  part := List.filter_sublist
  eligible r := by
    cases target with
    | snapshots =>
      have hkept : keptSnapshots (sweepOneBatch t .snapshots horizon).2 = keptSnapshots t := by
        refine keptSnapshots_deleteWhere ?_
        intro q hq
        rw [decide_eq_false_iff_not]
        intro hid
        have hmem : q ∈ t.rows := (perm_sortByKey _).mem_iff.mp (List.mem_of_mem_take hq)
        have helig := (mem_selected (id_mem_selected hmem hid)).2
        simp only [RetentionSweep.eligible, decide_eq_true_eq] at helig
        exact helig (List.mem_map_of_mem hq)
      simp only [RetentionSweep.eligible, hkept]
    | _ => rfl
  gone r hr hgone := by
    have hselected : r ∈ selected target horizon t := by
      by_contra hnot
      exact hgone (mem_sweepOneBatch.mpr ⟨hr, hnot⟩)
    exact (mem_selected hselected).2
  older r hr hgone q hq helig := by
    have hselected : r ∈ selected target horizon t := by
      by_contra hnot
      exact hgone (mem_sweepOneBatch.mpr ⟨hr, hnot⟩)
    obtain ⟨hmem, hleft⟩ := mem_sweepOneBatch.mp hq
    exact age_lt_of_selected hselected hmem helig hleft

theorem sweepOneBatch_length (t : EvidenceTable) (target : SweepTarget) (horizon : ℤ) :
    t.rows.length = (sweepOneBatch t target horizon).2.rows.length +
      (sweepOneBatch t target horizon).1 := by
  let p : EvidenceRow → Bool := fun r => r.id ∈ (selected target horizon t).map EvidenceRow.id
  have hsplit : t.rows.length = t.rows.countP p + t.rows.countP fun r => !p r := by
    rw [List.length_eq_countP_add_countP p]
    congr 2
    funext r
    cases p r <;> rfl
  have hrest : (t.deleteWhere p).rows.length = t.rows.countP fun r => !p r :=
    List.countP_eq_length_filter.symm
  change t.rows.length = (t.deleteWhere p).rows.length + t.rows.countP p
  omega

theorem sweepOneBatch_le (t : EvidenceTable) (target : SweepTarget) (horizon : ℤ) :
    (sweepOneBatch t target horizon).1 ≤ retentionBatchRows := by
  let p : EvidenceRow → Bool := fun r => r.id ∈ (selected target horizon t).map EvidenceRow.id
  have hnodup : ((t.rows.filter p).map EvidenceRow.id).Nodup :=
    t.nodup.sublist (List.filter_sublist.map _)
  have hsub : (t.rows.filter p).map EvidenceRow.id ⊆
      (selected target horizon t).map EvidenceRow.id := by
    intro id hid
    obtain ⟨r, hr, rfl⟩ := List.mem_map.mp hid
    simpa [p] using (List.mem_filter.mp hr).2
  have hle := (List.subperm_of_subset hnodup hsub).length_le
  rw [List.length_map, List.length_map] at hle
  have htake : (selected target horizon t).length ≤ retentionBatchRows := List.length_take_le _ _
  have hcount : (sweepOneBatch t target horizon).1 = (t.rows.filter p).length :=
    List.countP_eq_length_filter
  omega

/-- A table without a batch has no eligible row, and stays as it is. -/
theorem sweepOneBatch_zero (h : (sweepOneBatch t target horizon).1 = 0) :
    (sweepOneBatch t target horizon).2 = t ∧ ∀ r ∈ t.rows, eligible target horizon t r = false := by
  have hnone : ∀ r ∈ t.rows, ¬ r.id ∈ (selected target horizon t).map EvidenceRow.id := by
    simpa [sweepOneBatch, List.countP_eq_zero] using h
  have hempty : selected target horizon t = [] := by
    rw [List.eq_nil_iff_forall_not_mem]
    intro r hr
    exact hnone r (mem_selected hr).1 (List.mem_map_of_mem hr)
  constructor
  · apply Table.ext
    refine List.filter_eq_self.mpr ?_
    intro r hr
    simpa using hnone r hr
  · intro r hr
    by_contra helig
    rw [Bool.not_eq_false] at helig
    have hmem : r ∈ sortByKey (age target) (t.rows.filter (eligible target horizon t)) :=
      (perm_sortByKey _).mem_iff.mpr (List.mem_filter.mpr ⟨hr, helig⟩)
    rw [selected, List.take_eq_nil_iff] at hempty
    cases hempty with
    | inl hzero => simp [retentionBatchRows] at hzero
    | inr hnil => simp [hnil] at hmem

end Batch

section Turns

inductive Offered (horizon : ℤ) (s : Sweep) : Sweep → Prop where
  | start : Offered horizon s s
  | offer {u : Sweep} : Offered horizon s u → u.report.batches < retentionMaxBatchesPerSweep →
      u.emptyInRound < 4 → Offered horizon s (offer horizon u)

theorem Offered.prepend {horizon : ℤ} {s u : Sweep}
    (hbatches : s.report.batches < retentionMaxBatchesPerSweep) (hempty : s.emptyInRound < 4)
    (h : Offered horizon (RetentionSweep.offer horizon s) u) : Offered horizon s u := by
  induction h with
  | start => exact .offer .start hbatches hempty
  | offer _ hb he ih => exact .offer ih hb he

theorem offered_sweepLoop (horizon : ℤ) (s : Sweep) : Offered horizon s (sweepLoop horizon s) := by
  induction s using sweepLoop.induct horizon with
  | case1 s h ih =>
    rw [sweepLoop, if_pos h]
    exact ih.prepend h.1 h.2
  | case2 s h =>
    rw [sweepLoop, if_neg h]
    exact .start

theorem sweepLoop_stopped (horizon : ℤ) (s : Sweep) :
    retentionMaxBatchesPerSweep ≤ (sweepLoop horizon s).report.batches ∨
      4 ≤ (sweepLoop horizon s).emptyInRound := by
  induction s using sweepLoop.induct horizon with
  | case1 s h ih =>
    rw [sweepLoop, if_pos h]
    exact ih
  | case2 s h =>
    rw [sweepLoop, if_neg h]
    omega

def Tables.size (tables : Tables) : ℕ :=
  (tables .shadowOutcomes).rows.length + (tables .triggerEvents).rows.length +
    (tables .mempoolMaComparison).rows.length + (tables .snapshots).rows.length

theorem size_update (tables : Tables) (target : SweepTarget) (t : EvidenceTable) :
    Tables.size (Function.update tables target t) + (tables target).rows.length =
      Tables.size tables + t.rows.length := by
  cases target <;> simp [Tables.size] <;> omega

def Sweep.offersTo (s : Sweep) (target : SweepTarget) : ℕ := s.visits.countP fun v => v.1 = target

structure Turns (horizon : ℤ) (tables : Tables) (first : Fin 4) (s : Sweep) : Prop where
  swept : ∀ t, Swept t horizon (tables t) (s.tables t)
  size : tables.size ≤ s.tables.size + retentionBatchRows * s.report.batches
  deleted : ∀ t, (tables t).rows.length =
    (s.tables t).rows.length + (s.report.deleted t).getD 0
  bounded : s.report.batches ≤ retentionMaxBatchesPerSweep
  visits : s.report.batches ≤ s.visits.length
  turn : ∀ i, s.visits.length + (i - s.index).val =
    4 * s.offersTo (SweepTarget.ordered i) + (i - first).val
  productive : ∀ t, (∃ r ∈ (s.tables t).rows, eligible t horizon (s.tables t) r = true) →
    ∀ v ∈ s.visits, v.1 = t → 0 < v.2
  empty : ∀ i, (s.index - 1 - i).val < s.emptyInRound →
    ∀ r ∈ (s.tables (SweepTarget.ordered i)).rows,
      eligible (SweepTarget.ordered i) horizon (s.tables (SweepTarget.ordered i)) r = false

theorem turns_startSweep (horizon : ℤ) (tables : Tables) (cursor : ℕ) :
    Turns horizon tables (Fin.ofNat 4 cursor) (startSweep tables cursor) where
  swept t := Swept.refl _
  size := Nat.le_add_right _ _
  deleted t := rfl
  bounded := Nat.zero_le _
  visits := Nat.le_refl _
  turn i := by simp [startSweep, Sweep.offersTo]
  productive t _ v hv := by simp [startSweep] at hv
  empty i hi := by simp [startSweep] at hi

variable {horizon : ℤ} {tables : Tables} {first : Fin 4} {s : Sweep}

theorem turn_offer (h : Turns horizon tables first s) (i : Fin 4) :
    (offer horizon s).visits.length + (i - (offer horizon s).index).val =
      4 * (offer horizon s).offersTo (SweepTarget.ordered i) + (i - first).val := by
  have hturn := h.turn i
  have hplace : SweepTarget.ordered s.index = SweepTarget.ordered i ↔ s.index = i :=
    ⟨fun h => by simpa using congrArg SweepTarget.place h, congrArg _⟩
  have hself : ∀ j : Fin 4, (j - j).val = 0 := by decide
  have hlast : ∀ j : Fin 4, (j - (j + 1)).val = 3 := by decide
  have hnext : ∀ j k : Fin 4, j ≠ k → (k - j).val = (k - (j + 1)).val + 1 := by decide
  simp only [offer, Sweep.offersTo, List.length_cons, List.countP_cons, decide_eq_true_eq, hplace]
    at hturn ⊢
  by_cases hi : s.index = i
  · subst hi
    rw [if_pos rfl, hlast]
    rw [hself] at hturn
    omega
  · rw [if_neg hi]
    have hstep := hnext _ _ hi
    omega

theorem tables_offer (horizon : ℤ) (s : Sweep) (t : SweepTarget) :
    (offer horizon s).tables t = if t = SweepTarget.ordered s.index then
      (sweepOneBatch (s.tables t) t horizon).2 else s.tables t := by
  by_cases ht : t = SweepTarget.ordered s.index
  · subst ht
    simp [offer]
  · simp [offer, ht]

theorem swept_offer (horizon : ℤ) (s : Sweep) (t : SweepTarget) :
    Swept t horizon (s.tables t) ((offer horizon s).tables t) := by
  rw [tables_offer]
  split
  · exact swept_sweepOneBatch _ _ _
  · exact Swept.refl _

theorem deleted_offer (horizon : ℤ) (s : Sweep) (t : SweepTarget) :
    (s.tables t).rows.length + (s.report.deleted t).getD 0 =
      ((offer horizon s).tables t).rows.length + ((offer horizon s).report.deleted t).getD 0 := by
  rw [tables_offer]
  by_cases ht : t = SweepTarget.ordered s.index
  · subst ht
    have hlen := sweepOneBatch_length (s.tables (SweepTarget.ordered s.index))
      (SweepTarget.ordered s.index) horizon
    by_cases hzero : (sweepOneBatch (s.tables (SweepTarget.ordered s.index))
        (SweepTarget.ordered s.index) horizon).1 = 0
    · simp only [offer, hzero, if_true]
      omega
    · simp only [offer, hzero, if_true, if_false, Function.update_self, Option.getD_some]
      omega
  · rw [if_neg ht]
    simp only [offer]
    split
    · rfl
    · simp only [Function.update_of_ne ht]

theorem productive_offer (h : Turns horizon tables first s) (t : SweepTarget)
    (hleft : ∃ r ∈ ((offer horizon s).tables t).rows,
      eligible t horizon ((offer horizon s).tables t) r = true) :
    ∀ v ∈ (offer horizon s).visits, v.1 = t → 0 < v.2 := by
  obtain ⟨r, hr, helig⟩ := hleft
  have hswept := swept_offer horizon s t
  rw [hswept.eligible] at helig
  intro v hv hvt
  simp only [offer, List.mem_cons] at hv
  rcases hv with rfl | hv
  · subst hvt
    refine Nat.pos_of_ne_zero ?_
    intro hzero
    have hnone := (sweepOneBatch_zero hzero).2 r (hswept.part.subset hr)
    exact Bool.false_ne_true (hnone.symm.trans helig)
  · exact h.productive t ⟨r, hswept.part.subset hr, helig⟩ v hv hvt

theorem empty_offer (h : Turns horizon tables first s) (i : Fin 4)
    (hi : ((offer horizon s).index - 1 - i).val < (offer horizon s).emptyInRound) :
    ∀ r ∈ ((offer horizon s).tables (SweepTarget.ordered i)).rows, eligible (SweepTarget.ordered i)
      horizon ((offer horizon s).tables (SweepTarget.ordered i)) r = false := by
  intro r hr
  have hswept := swept_offer horizon s (SweepTarget.ordered i)
  rw [hswept.eligible]
  have hmem := hswept.part.subset hr
  have hback : ∀ j k : Fin 4, (j + 1 - 1 - k).val = (j - k).val := by decide
  simp only [offer, hback] at hi
  split at hi
  · rename_i hzero
    by_cases hidx : s.index = i
    · subst hidx
      exact (sweepOneBatch_zero hzero).2 r hmem
    · have hprev : ∀ j k : Fin 4, j ≠ k → (j - k).val = (j - 1 - k).val + 1 := by decide
      have hstep := hprev _ _ hidx
      exact h.empty i (by omega) r hmem
  · omega

theorem turns_offer (h : Turns horizon tables first s)
    (hbatches : s.report.batches < retentionMaxBatchesPerSweep) :
    Turns horizon tables first (offer horizon s) where
  swept t := (h.swept t).trans (swept_offer horizon s t)
  size := by
    let target := SweepTarget.ordered s.index
    have hsize := h.size
    have hupdate := size_update s.tables target (sweepOneBatch (s.tables target) target horizon).2
    have hlen := sweepOneBatch_length (s.tables target) target horizon
    have hle := sweepOneBatch_le (s.tables target) target horizon
    by_cases hzero : (sweepOneBatch (s.tables target) target horizon).1 = 0
    · simp only [offer, target, hzero, if_true] at *
      omega
    · simp only [offer, target, hzero, if_false, Nat.mul_add, mul_one] at *
      omega
  deleted t := (h.deleted t).trans (deleted_offer horizon s t)
  bounded := by
    have hbounded := h.bounded
    simp only [offer]
    split
    · exact hbounded
    · exact hbatches
  visits := by
    have hvisits := h.visits
    simp only [offer, List.length_cons]
    split
    · omega
    · exact Nat.succ_le_succ hvisits
  turn := turn_offer h
  productive := productive_offer h
  empty := empty_offer h

theorem turns_of_offered {u : Sweep} (h : Turns horizon tables first s) (k : Offered horizon s u) :
    Turns horizon tables first u := by
  induction k with
  | start => exact h
  | offer _ hbatches _ ih => exact turns_offer ih hbatches

/-- A table with an eligible row left had a batch at every one of its turns. -/
theorem two_batches (h : Turns horizon tables first s)
    (hbatches : s.report.batches = retentionMaxBatchesPerSweep) {t : SweepTarget}
    (hleft : ∃ r ∈ (s.tables t).rows, eligible t horizon (s.tables t) r = true) :
    2 ≤ s.visits.countP fun v => v.1 = t ∧ 0 < v.2 := by
  have hall : s.visits.countP (fun v => v.1 = t ∧ 0 < v.2) = s.offersTo t := by
    refine List.countP_congr ?_
    intro v hv
    simp only [decide_eq_true_eq]
    exact ⟨fun h => h.1, fun ht => ⟨ht, h.productive t hleft v hv ht⟩⟩
  have hturn := h.turn t.place
  rw [ordered_place] at hturn
  have hvisits := h.visits
  have hfirst := (t.place - first).isLt
  rw [hbatches, retentionMaxBatchesPerSweep] at hvisits
  omega

end Turns

section Sweeps

/-- Sweeps that hand the cursor on; the tables change between them as they like. -/
def chainedSweeps : Tables → ℕ → List (ℤ × (Tables → Tables)) → List (ℤ × Sweep)
  | _, _, [] => []
  | tables, cursor, (now, between) :: rest =>
    let s := runRetentionSweep tables now cursor
    (now, s) :: chainedSweeps (between s.tables) s.report.nextCursor rest

theorem turns_runRetentionSweep (tables : Tables) (now : ℤ) (cursor : ℕ) :
    Turns (horizonAt now) tables (Fin.ofNat 4 cursor)
      (sweepLoop (horizonAt now) (startSweep tables cursor)) :=
  turns_of_offered (turns_startSweep _ tables cursor) (offered_sweepLoop _ _)

def NotStarved (now : ℤ) (s : Sweep) : Prop :=
  s.report.truncated = true → ∀ t,
    (∃ r ∈ (s.tables t).rows, eligible t (horizonAt now) (s.tables t) r = true) →
      2 ≤ s.visits.countP fun v => v.1 = t ∧ 0 < v.2

theorem runRetentionSweep_notStarved (tables : Tables) (now : ℤ) (cursor : ℕ) :
    NotStarved now (runRetentionSweep tables now cursor) := by
  intro htruncated t hleft
  have hbatches : (sweepLoop (horizonAt now) (startSweep tables cursor)).report.batches =
      retentionMaxBatchesPerSweep := by simpa [runRetentionSweep] using htruncated
  exact two_batches (turns_runRetentionSweep tables now cursor) hbatches hleft

theorem chainedSweeps_notStarved (steps : List (ℤ × (Tables → Tables))) (tables : Tables)
    (cursor : ℕ) : ∀ p ∈ chainedSweeps tables cursor steps, NotStarved p.1 p.2 := by
  induction steps generalizing tables cursor with
  | nil => simp [chainedSweeps]
  | cons step rest ih =>
    intro p hp
    simp only [chainedSweeps, List.mem_cons] at hp
    rcases hp with rfl | hp
    · exact runRetentionSweep_notStarved tables step.1 cursor
    · exact ih _ _ p hp

/-- The time column is an i64, so nothing is before a saturated horizon. -/
theorem key_lt_of_horizonAt {r : EvidenceRow} {now : ℤ} (h : r.key < horizonAt now) :
    r.key < now - runwayEvidenceRetentionSeconds := by
  have hlow := r.inI64.1
  rw [horizonAt, lt_max_iff] at h
  omega

theorem retention_sweep_exact (tables : Tables) (now : ℤ) (cursor : ℕ) :
    let s := runRetentionSweep tables now cursor
    (tables.size ≤ s.tables.size + 8 * 500 ∧ ∀ t, (s.tables t).rows.Sublist (tables t).rows ∧
      (tables t).rows.length = (s.tables t).rows.length + (s.report.deleted t).getD 0) ∧
    (∀ t, ∀ r ∈ (tables t).rows, r ∉ (s.tables t).rows →
      if t = .snapshots then r ∉ keptSnapshots (tables t) else r.key < now - 30 * 86400) ∧
    (∀ u, Offered (horizonAt now) (startSweep tables cursor) u →
      ∀ t, ∀ r ∈ (tables t).rows, r ∉ (u.tables t).rows → ∀ q ∈ (u.tables t).rows,
        eligible t (horizonAt now) (tables t) q = true → age t r < age t q) ∧
    (s.report.truncated = false → ∀ t, ∀ r ∈ (s.tables t).rows,
      eligible t (horizonAt now) (s.tables t) r = false) ∧
    NotStarved now s ∧
    ∀ steps, ∀ p ∈ chainedSweeps tables cursor steps, NotStarved p.1 p.2 := by
  intro s
  have hturns := turns_runRetentionSweep tables now cursor
  refine ⟨⟨?_, fun t => ⟨(hturns.swept t).part, hturns.deleted t⟩⟩, ?_, ?_, ?_,
    runRetentionSweep_notStarved tables now cursor,
    fun steps => chainedSweeps_notStarved steps tables cursor⟩
  · have hsize := hturns.size
    have hbounded := hturns.bounded
    have htables : s.tables = (sweepLoop (horizonAt now) (startSweep tables cursor)).tables := rfl
    rw [htables]
    rw [retentionBatchRows] at hsize
    rw [retentionMaxBatchesPerSweep] at hbounded
    omega
  · intro t r hr hgone
    have helig := (hturns.swept t).gone r hr hgone
    cases t with
    | snapshots =>
      intro hkept
      simp only [eligible, decide_eq_true_eq] at helig
      exact helig (List.mem_map_of_mem hkept)
    | _ => exact key_lt_of_horizonAt (by simpa [eligible] using helig)
  · intro u hu t
    exact ((turns_of_offered (turns_startSweep _ tables cursor) hu).swept t).older
  · intro htruncated t r hr
    have hbatches : ¬ (sweepLoop (horizonAt now) (startSweep tables cursor)).report.batches =
        retentionMaxBatchesPerSweep := by simpa [s, runRetentionSweep] using htruncated
    have hempty := (sweepLoop_stopped (horizonAt now) (startSweep tables cursor)).resolve_left
      (fun h => hbatches (Nat.le_antisymm hturns.bounded h))
    have hlast := hturns.empty t.place (lt_of_lt_of_le (Fin.isLt _) hempty)
    rw [ordered_place] at hlast
    exact hlast r hr

end Sweeps

end RetentionSweep
