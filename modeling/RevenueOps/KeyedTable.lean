import Mathlib.Algebra.BigOperators.Group.List.Basic
import Mathlib.Algebra.Order.BigOperators.Group.List
import Mathlib.Data.List.Nodup
import Mathlib.Tactic.Ring
import Mathlib.Tactic.Linarith

/-! Tables with a primary key, as row lists that carry key uniqueness.
INSERT OR REPLACE deletes the row with the same key and adds the new one; UPDATE maps the
selected rows and may not change a key. Every aggregate below is a sum over the rows. -/
namespace KeyedTable

structure Table (ρ κ : Type) (key : ρ → κ) where
  rows : List ρ
  nodup : (rows.map key).Nodup

variable {ρ κ : Type} {key : ρ → κ}

@[ext] theorem Table.ext {t u : Table ρ κ key} (h : t.rows = u.rows) : t = u := by
  cases t; cases u; simpa using h

def Table.empty : Table ρ κ key := ⟨[], List.nodup_nil⟩

instance [DecidableEq ρ] : DecidableEq (Table ρ κ key) := fun t u =>
  decidable_of_iff (t.rows = u.rows) ⟨Table.ext, fun h => h ▸ rfl⟩

section Lookup

variable [DecidableEq κ]

def Table.find? (t : Table ρ κ key) (k : κ) : Option ρ := t.rows.find? fun r => key r = k

theorem find_eq_some_iff {t : Table ρ κ key} {k : κ} {r : ρ} :
    t.find? k = some r ↔ r ∈ t.rows ∧ key r = k := by
  constructor
  · intro h
    exact ⟨List.mem_of_find?_eq_some h, by simpa using List.find?_some h⟩
  · rintro ⟨hr, rfl⟩
    cases h : t.find? (key r) with
    | none => simpa using List.find?_eq_none.mp h r hr
    | some q =>
      have hq : key q = key r := by simpa using List.find?_some h
      rw [List.inj_on_of_nodup_map t.nodup (List.mem_of_find?_eq_some h) hr hq]

theorem find_key {t : Table ρ κ key} {k : κ} {r : ρ} (h : t.find? k = some r) : key r = k :=
  (find_eq_some_iff.mp h).2

@[simp] theorem find_empty (k : κ) : (Table.empty : Table ρ κ key).find? k = none := rfl

def Table.insertOrReplace (t : Table ρ κ key) (r : ρ) : Table ρ κ key where
  rows := t.rows.filter (fun q => key q ≠ key r) ++ [r]
  nodup := by
    rw [List.map_append, List.map_singleton]
    refine List.Nodup.append (t.nodup.sublist (List.filter_sublist.map key))
      (List.nodup_singleton _) ?_
    intro k hk hr
    obtain ⟨q, hq, rfl⟩ := List.mem_map.mp hk
    have hne := (List.mem_filter.mp hq).2
    simp at hne hr
    exact hne hr

theorem mem_insertOrReplace {t : Table ρ κ key} {r q : ρ} :
    q ∈ (t.insertOrReplace r).rows ↔ q = r ∨ (q ∈ t.rows ∧ key q ≠ key r) := by
  simp [Table.insertOrReplace]
  tauto

@[simp] theorem find_insertOrReplace (t : Table ρ κ key) (r : ρ) (k : κ) :
    (t.insertOrReplace r).find? k = if key r = k then some r else t.find? k := by
  by_cases hk : key r = k
  · rw [if_pos hk]
    exact find_eq_some_iff.mpr ⟨mem_insertOrReplace.mpr (Or.inl rfl), hk⟩
  · rw [if_neg hk]
    ext q
    rw [find_eq_some_iff, find_eq_some_iff, mem_insertOrReplace]
    constructor
    · rintro ⟨rfl | ⟨hq, _⟩, he⟩
      · exact absurd he hk
      · exact ⟨hq, he⟩
    · rintro ⟨hq, he⟩
      exact ⟨Or.inr ⟨hq, fun h => hk (h.symm.trans he)⟩, he⟩

end Lookup

/-- UPDATE … SET … WHERE p, with a proof that the assignment keeps the key column. -/
def Table.updateWhere (t : Table ρ κ key) (p : ρ → Bool) (f : ρ → ρ)
    (hf : ∀ r, key (f r) = key r) : Table ρ κ key where
  rows := t.rows.map fun r => if p r then f r else r
  nodup := by
    have h : (key ∘ fun r => if p r then f r else r) = key := by
      funext r
      by_cases hp : p r <;> simp [hp, hf]
    rw [List.map_map, h]
    exact t.nodup

@[simp] theorem find_updateWhere [DecidableEq κ] (t : Table ρ κ key) (p : ρ → Bool) (f : ρ → ρ)
    (hf : ∀ r, key (f r) = key r) (k : κ) :
    (t.updateWhere p f hf).find? k = (t.find? k).map fun r => if p r then f r else r := by
  have h : ((fun r => decide (key r = k)) ∘ fun r => if p r then f r else r) =
      fun r => decide (key r = k) := by
    funext r
    by_cases hp : p r <;> simp [hp, hf]
  simp only [Table.find?, Table.updateWhere, List.find?_map, h]

theorem updateWhere_of_none (t : Table ρ κ key) (p : ρ → Bool) (f : ρ → ρ)
    (hf : ∀ r, key (f r) = key r) (h : ∀ r ∈ t.rows, p r = false) : t.updateWhere p f hf = t := by
  ext1
  simp only [Table.updateWhere]
  conv_rhs => rw [← List.map_id t.rows]
  exact List.map_congr_left fun r hr => by simp [h r hr]

def Table.deleteWhere (t : Table ρ κ key) (p : ρ → Bool) : Table ρ κ key where
  rows := t.rows.filter fun r => !p r
  nodup := t.nodup.sublist (List.filter_sublist.map key)

theorem find_deleteWhere_eq_some [DecidableEq κ] {t : Table ρ κ key} {p : ρ → Bool} {k : κ}
    {r : ρ} : (t.deleteWhere p).find? k = some r ↔ t.find? k = some r ∧ p r = false := by
  rw [find_eq_some_iff, find_eq_some_iff]
  simp only [Table.deleteWhere, List.mem_filter, Bool.not_eq_true']
  tauto

section Insert

def Table.insert? [DecidableEq κ] (t : Table ρ κ key) (r : ρ) : Option (Table ρ κ key) :=
  if h : key r ∈ t.rows.map key then none
  else some ⟨t.rows ++ [r], by
    rw [List.map_append, List.map_singleton]
    exact t.nodup.append (List.nodup_singleton _) (by simpa using h)⟩

theorem insert_eq_some [DecidableEq κ] {t u : Table ρ κ key} {r : ρ} :
    t.insert? r = some u ↔ key r ∉ t.rows.map key ∧ u.rows = t.rows ++ [r] := by
  unfold Table.insert?
  by_cases h : key r ∈ t.rows.map key
  · simp [h]
  · rw [dif_neg h, Option.some.injEq, Table.ext_iff]
    constructor
    · intro hu
      exact ⟨h, hu.symm⟩
    · intro hu
      exact hu.2.symm

/-- The key that AUTOINCREMENT gives to the next row of a table that loses none. -/
def Table.nextKey {key : ρ → ℕ} (t : Table ρ ℕ key) : ℕ := (t.rows.map key).foldr max 0 + 1

theorem lt_nextKey {key : ρ → ℕ} {t : Table ρ ℕ key} {r : ρ} (hr : r ∈ t.rows) :
    key r < t.nextKey := by
  unfold Table.nextKey
  generalize t.rows = l at hr
  induction l with
  | nil => cases hr
  | cons q l ih =>
    rw [List.map_cons, List.foldr_cons]
    rcases List.mem_cons.mp hr with rfl | hr
    · omega
    · have hlt := ih hr
      omega

def Table.insertNext {key : ρ → ℕ} (t : Table ρ ℕ key) (row : ℕ → ρ) (hrow : ∀ n, key (row n) = n) :
    Table ρ ℕ key where
  rows := t.rows ++ [row t.nextKey]
  nodup := by
    rw [List.map_append, List.map_singleton, hrow]
    refine t.nodup.append (List.nodup_singleton _) ?_
    simp only [List.disjoint_singleton, List.mem_map, not_exists, not_and]
    intro r hr hkey
    have hlt := lt_nextKey hr
    omega

@[simp] theorem rows_insertNext {key : ρ → ℕ} (t : Table ρ ℕ key) (row : ℕ → ρ)
    (hrow : ∀ n, key (row n) = n) : (t.insertNext row hrow).rows = t.rows ++ [row t.nextKey] := rfl

end Insert

/-- SUM(g) over the rows that satisfy p, in exact integers. -/
def Table.sumWhere (t : Table ρ κ key) (p : ρ → Bool) (g : ρ → ℤ) : ℤ :=
  ((t.rows.filter p).map g).sum

def contribution (p : ρ → Bool) (g : ρ → ℤ) (r : Option ρ) : ℤ :=
  r.elim 0 fun r => if p r then g r else 0

@[simp] theorem contribution_none (p : ρ → Bool) (g : ρ → ℤ) : contribution p g none = 0 := rfl

@[simp] theorem contribution_some (p : ρ → Bool) (g : ρ → ℤ) (r : ρ) :
    contribution p g (some r) = if p r then g r else 0 := rfl

theorem sum_filter (p : ρ → Bool) (g : ρ → ℤ) (l : List ρ) :
    ((l.filter p).map g).sum = (l.map fun r => contribution p g (some r)).sum := by
  induction l with
  | nil => rfl
  | cons r l ih => by_cases hp : p r <;> simp [hp, ih]

theorem sumWhere_eq (t : Table ρ κ key) (p : ρ → Bool) (g : ρ → ℤ) :
    t.sumWhere p g = (t.rows.map fun r => contribution p g (some r)).sum :=
  sum_filter p g t.rows

@[simp] theorem sumWhere_empty (p : ρ → Bool) (g : ρ → ℤ) :
    (Table.empty : Table ρ κ key).sumWhere p g = 0 := rfl

theorem sumWhere_nonneg {t : Table ρ κ key} {p : ρ → Bool} {g : ρ → ℤ}
    (h : ∀ r ∈ t.rows, p r → 0 ≤ g r) : 0 ≤ t.sumWhere p g := by
  apply List.sum_nonneg
  intro x hx
  obtain ⟨r, hr, rfl⟩ := List.mem_map.mp hx
  exact h r (List.mem_filter.mp hr).1 (List.mem_filter.mp hr).2

private theorem sum_split_key [DecidableEq κ] {l : List ρ} (hn : (l.map key).Nodup)
    (g : ρ → ℤ) (k : κ) :
    (l.map g).sum =
      ((l.filter fun q => key q ≠ k).map g).sum + ((l.find? fun q => key q = k).elim 0 g) := by
  induction l with
  | nil => rfl
  | cons r l ih =>
    rw [List.map_cons, List.nodup_cons] at hn
    by_cases hk : key r = k
    · have hrest : l.filter (fun q => key q ≠ k) = l := by
        apply List.filter_eq_self.mpr
        intro q hq
        have : key q ≠ k := fun h => hn.1 (List.mem_map.mpr ⟨q, hq, h.trans hk.symm⟩)
        simpa using this
      rw [List.filter_cons_of_neg (by simpa using hk), hrest,
        List.find?_cons_of_pos (by simpa using hk)]
      simp [add_comm]
    · rw [List.filter_cons_of_pos (by simpa using hk), List.find?_cons_of_neg (by simpa using hk)]
      simp only [List.map_cons, List.sum_cons, ih hn.2]
      ring

/-- Replacing a row moves a sum by the new contribution less the old one. -/
theorem sumWhere_insertOrReplace [DecidableEq κ] (t : Table ρ κ key) (r : ρ) (p : ρ → Bool)
    (g : ρ → ℤ) :
    (t.insertOrReplace r).sumWhere p g =
      t.sumWhere p g - contribution p g (t.find? (key r)) + contribution p g (some r) := by
  rw [sumWhere_eq, sumWhere_eq, sum_split_key t.nodup _ (key r)]
  have hfind : ((t.rows.find? fun q => key q = key r).elim 0 fun r => contribution p g (some r)) =
      contribution p g (t.find? (key r)) := by
    unfold Table.find?
    cases t.rows.find? fun q => key q = key r <;> rfl
  rw [hfind]
  simp only [Table.insertOrReplace, List.map_append, List.sum_append, List.map_singleton,
    List.sum_singleton]
  ring

/-- An update that takes every selected row out of p leaves the unselected part of the sum. -/
theorem sumWhere_updateWhere_out (t : Table ρ κ key) {q : ρ → Bool} {f : ρ → ρ}
    (hf : ∀ r, key (f r) = key r) {p : ρ → Bool} (g : ρ → ℤ)
    (hout : ∀ r, q r → p (f r) = false) :
    (t.updateWhere q f hf).sumWhere p g =
      t.sumWhere p g - t.sumWhere (fun r => p r && q r) g := by
  simp only [sumWhere_eq, Table.updateWhere]
  induction t.rows with
  | nil => rfl
  | cons r l ih =>
    simp only [List.map_cons, List.sum_cons, ih]
    by_cases hq : q r
    · by_cases hp : p r <;> simp [hq, hp, hout r hq]
    · by_cases hp : p r <;> simp [hq, hp]
      ring

theorem countP_updateWhere_out (t : Table ρ κ key) {q : ρ → Bool} {f : ρ → ρ}
    (hf : ∀ r, key (f r) = key r) {p : ρ → Bool} (hout : ∀ r, q r → p (f r) = false) :
    (t.updateWhere q f hf).rows.countP p + t.rows.countP (fun r => p r && q r) =
      t.rows.countP p := by
  simp only [Table.updateWhere]
  induction t.rows with
  | nil => rfl
  | cons r l ih =>
    simp only [List.map_cons, List.countP_cons]
    by_cases hq : q r
    · by_cases hp : p r
      · simp only [hq, hp, hout r hq, Bool.and_self, if_true, Bool.false_eq_true, if_false]
        omega
      · simp only [hq, hp, hout r hq, Bool.and_true, if_true, Bool.false_eq_true, if_false]
        omega
    · simp only [hq, Bool.and_false, Bool.false_eq_true, if_false]
      omega

theorem sumWhere_key [DecidableEq κ] (t : Table ρ κ key) (k : κ) (p : ρ → Bool) (g : ρ → ℤ) :
    t.sumWhere (fun r => p r && decide (key r = k)) g = contribution p g (t.find? k) := by
  rw [sumWhere_eq, sum_split_key t.nodup _ k]
  have hzero : ((t.rows.filter fun q => key q ≠ k).map fun r =>
      contribution (fun r => p r && decide (key r = k)) g (some r)).sum = 0 := by
    apply List.sum_eq_zero
    intro x hx
    obtain ⟨r, hr, rfl⟩ := List.mem_map.mp hx
    have hne : key r ≠ k := by simpa using (List.mem_filter.mp hr).2
    simp [hne]
  rw [hzero, zero_add]
  change (t.find? k).elim 0 _ = _
  cases h : t.find? k with
  | none => rfl
  | some r =>
    have hk := find_key h
    simp [hk]

end KeyedTable
