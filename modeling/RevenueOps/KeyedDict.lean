import RevenueOps.KeyedTable

/-! Finite maps as tables of key and value: what an ordered or a hashed map of the source holds,
without the order in which it is walked. -/
namespace KeyedTable

abbrev Dict (κ α : Type) := Table (κ × α) κ Prod.fst

namespace Dict

variable {κ α : Type} [DecidableEq κ]

def get? (m : Dict κ α) (k : κ) : Option α := (m.find? k).map Prod.snd

def contains (m : Dict κ α) (k : κ) : Bool := (m.get? k).isSome

def insert (m : Dict κ α) (k : κ) (v : α) : Dict κ α := m.insertOrReplace (k, v)

def erase (m : Dict κ α) (k : κ) : Dict κ α := m.deleteWhere fun e => e.1 = k

/-- The entries written one after the other, a later one over an earlier one of the same key. -/
def insertAll (m : Dict κ α) (entries : List (κ × α)) : Dict κ α :=
  entries.foldl (fun m e => m.insert e.1 e.2) m

def isEmpty (m : Dict κ α) : Bool := m.rows.isEmpty

variable {m : Dict κ α} {k j : κ} {v : α}

@[simp] theorem get_empty : get? (Table.empty : Dict κ α) k = none := rfl

theorem get_insert : (m.insert k v).get? j = if k = j then some v else m.get? j := by
  unfold get? insert
  rw [find_insertOrReplace]
  by_cases hk : k = j
  · simp [hk]
  · simp [hk]

@[simp] theorem get_insert_self : (m.insert k v).get? k = some v := by simp [get_insert]

theorem get_insert_ne (h : k ≠ j) : (m.insert k v).get? j = m.get? j := by simp [get_insert, h]

theorem get_eq_some : m.get? k = some v ↔ (k, v) ∈ m.rows := by
  unfold get?
  rw [Option.map_eq_some_iff]
  constructor
  · rintro ⟨e, he, rfl⟩
    obtain ⟨hmem, rfl⟩ := find_eq_some_iff.mp he
    exact hmem
  · intro hmem
    exact ⟨(k, v), find_eq_some_iff.mpr ⟨hmem, rfl⟩, rfl⟩

theorem get_erase : (m.erase k).get? j = if k = j then none else m.get? j := by
  ext v
  rw [get_eq_some]
  unfold erase Table.deleteWhere
  by_cases hk : k = j
  · simp [hk]
  · have hj : j ≠ k := fun h => hk h.symm
    simp [hk, hj, get_eq_some]

@[simp] theorem get_erase_self : (m.erase k).get? k = none := by simp [get_erase]

theorem get_erase_ne (h : k ≠ j) : (m.erase k).get? j = m.get? j := by simp [get_erase, h]

theorem isEmpty_iff : m.isEmpty = true ↔ ∀ k, m.get? k = none := by
  unfold isEmpty
  rw [List.isEmpty_iff]
  constructor
  · intro h k
    rw [Option.eq_none_iff_forall_not_mem]
    intro v hv
    have hmem := get_eq_some.mp hv
    rw [h] at hmem
    cases hmem
  · intro h
    rw [List.eq_nil_iff_forall_not_mem]
    rintro ⟨k, v⟩ hmem
    have hv := get_eq_some.mpr hmem
    rw [h k] at hv
    cases hv

theorem not_isEmpty_of_get (h : m.get? k = some v) : m.isEmpty = false := by
  rw [Bool.eq_false_iff]
  intro hempty
  rw [isEmpty_iff.mp hempty k] at h
  cases h

theorem isEmpty_congr {n : Dict κ α} (h : ∀ k, m.get? k = n.get? k) : m.isEmpty = n.isEmpty := by
  rw [Bool.eq_iff_iff, isEmpty_iff, isEmpty_iff]
  simp only [h]

theorem erase_insert_self : (m.insert k v).erase k = m.erase k := by
  apply Table.ext
  unfold erase insert Table.deleteWhere Table.insertOrReplace
  simp [List.filter_append, List.filter_filter]

theorem erase_erase_self : (m.erase k).erase k = m.erase k := by
  apply Table.ext
  unfold erase Table.deleteWhere
  simp [List.filter_filter]

theorem get_erase_insert (h : m.get? k = none) : ((m.insert k v).erase k).get? j = m.get? j := by
  by_cases hk : k = j
  · subst hk
    rw [get_erase_self, h]
  · rw [get_erase_ne hk, get_insert_ne hk]

theorem isSome_insertAll {entries : List (κ × α)} (h : (m.get? k).isSome) :
    ((m.insertAll entries).get? k).isSome := by
  unfold insertAll
  induction entries generalizing m with
  | nil => exact h
  | cons e es ih =>
    apply ih
    rw [get_insert]
    split
    · rfl
    · exact h

theorem rows_insert_of_none (h : m.get? k = none) : (m.insert k v).rows = m.rows ++ [(k, v)] := by
  change m.rows.filter (fun q => q.1 ≠ k) ++ [(k, v)] = m.rows ++ [(k, v)]
  congr 1
  apply List.filter_eq_self.mpr
  rintro ⟨j, w⟩ hmem
  have hne : j ≠ k := by
    rintro rfl
    rw [get_eq_some.mpr hmem] at h
    cases h
  simpa using hne

theorem rows_foldl_insert {ε : Type} (l : List ε) (key : ε → κ) (value : ε → α) (m : Dict κ α)
    (hn : (l.map key).Nodup) (hnew : ∀ e ∈ l, m.get? (key e) = none) :
    (l.foldl (fun m e => m.insert (key e) (value e)) m).rows =
      m.rows ++ l.map fun e => (key e, value e) := by
  induction l generalizing m with
  | nil => simp
  | cons e l ih =>
    rw [List.map_cons, List.nodup_cons] at hn
    have hrest : ∀ q ∈ l, (m.insert (key e) (value e)).get? (key q) = none := by
      intro q hq
      have hne : key e ≠ key q := fun h => hn.1 (List.mem_map.mpr ⟨q, hq, h.symm⟩)
      rw [get_insert_ne hne]
      exact hnew q (List.mem_cons_of_mem _ hq)
    rw [List.foldl_cons, ih _ hn.2 hrest, rows_insert_of_none (hnew e List.mem_cons_self)]
    simp

/-- A map whose rows are those of another one, with values computed from them. -/
theorem get_of_rows_map {β : Type} {n : Dict κ β} {f : κ → α → β}
    (h : n.rows = m.rows.map fun e => (e.1, f e.1 e.2)) : n.get? k = (m.get? k).map (f k) := by
  ext v
  rw [get_eq_some, h, List.mem_map, Option.map_eq_some_iff]
  constructor
  · rintro ⟨⟨j, a⟩, hmem, heq⟩
    cases heq
    exact ⟨a, get_eq_some.mpr hmem, rfl⟩
  · rintro ⟨a, ha, rfl⟩
    exact ⟨(k, a), get_eq_some.mp ha, rfl⟩

theorem rows_split (h : m.get? k = some v) :
    ∃ before after, m.rows = before ++ (k, v) :: after ∧ ∀ e ∈ before ++ after, e.1 ≠ k := by
  obtain ⟨before, after, hrows⟩ := List.append_of_mem (get_eq_some.mp h)
  refine ⟨before, after, hrows, fun e he => ?_⟩
  have hn := m.nodup
  rw [hrows, List.map_append, List.map_cons, List.nodup_middle, List.nodup_cons] at hn
  have hmem : e.1 ∈ (before ++ after).map Prod.fst := List.mem_map_of_mem he
  intro hk
  rw [hk, List.map_append] at hmem
  exact hn.1 hmem

end Dict

end KeyedTable
