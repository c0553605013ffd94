import Mathlib.Algebra.BigOperators.Group.List.Basic
import Mathlib.Algebra.Order.BigOperators.Group.List
import Mathlib.Algebra.Order.Ring.Int
import Mathlib.Data.Int.Notation
import Mathlib.Data.List.Pairwise

/-! Counting times in an ordered map, and grouping them into clusters whose gaps stay within a
tolerance. A time is in reach of a cluster when it lies within the tolerance of its ends. -/
namespace TimeClusters

section Tally

def bump (k : ℤ) : List (ℤ × ℤ) → List (ℤ × ℤ)
  | [] => [(k, 1)]
  | e :: m =>
    if k < e.1 then (k, 1) :: e :: m
    else if k = e.1 then (e.1, e.2 + 1) :: m
    else e :: bump k m

def tally (ts : List ℤ) : List (ℤ × ℤ) := ts.foldl (fun m t => bump t m) []

def Ascending (m : List (ℤ × ℤ)) : Prop := m.Pairwise fun a b => a.1 < b.1

theorem mem_bump {k x : ℤ} {m : List (ℤ × ℤ)} :
    x ∈ (bump k m).map Prod.fst ↔ x = k ∨ x ∈ m.map Prod.fst := by
  induction m with
  | nil => simp [bump]
  | cons e m ih =>
    unfold bump
    split
    · simp
    · split
      · rename_i heq
        simp [heq]
      · rw [List.map_cons, List.mem_cons, ih, List.map_cons, List.mem_cons]
        tauto

theorem ascending_bump {k : ℤ} {m : List (ℤ × ℤ)} (h : Ascending m) : Ascending (bump k m) := by
  induction m with
  | nil => exact List.pairwise_singleton _ _
  | cons e m ih =>
    have hcons := List.pairwise_cons.mp h
    unfold bump
    split
    · rename_i hlt
      refine List.pairwise_cons.mpr ⟨?_, h⟩
      intro x hx
      rcases List.mem_cons.mp hx with rfl | hx
      · exact hlt
      · exact hlt.trans (hcons.1 x hx)
    · split
      · exact List.pairwise_cons.mpr hcons
      · rename_i hlt hne
        refine List.pairwise_cons.mpr ⟨?_, ih hcons.2⟩
        intro x hx
        have hkey : x.1 ∈ (bump k m).map Prod.fst := List.mem_map_of_mem hx
        rcases mem_bump.mp hkey with heq | hold
        · omega
        · obtain ⟨y, hy, heq⟩ := List.mem_map.mp hold
          have := hcons.1 y hy
          omega

theorem sum_bump (p : ℤ → Bool) (k : ℤ) (m : List (ℤ × ℤ)) :
    (((bump k m).filter fun e => p e.1).map Prod.snd).sum =
      ((m.filter fun e => p e.1).map Prod.snd).sum + if p k then 1 else 0 := by
  induction m with
  | nil => by_cases hp : p k <;> simp [bump, hp]
  | cons e m ih =>
    unfold bump
    split
    · by_cases hp : p k <;> simp [hp, add_comm]
    · split
      · rename_i heq
        subst heq
        by_cases hp : p e.1
        · simp [hp]
          omega
        · simp [hp]
      · by_cases hp : p e.1
        · simp only [List.filter_cons, hp, if_true, List.map_cons, List.sum_cons, ih]
          omega
        · simpa [List.filter_cons, hp] using ih

variable {ts : List ℤ} {m : List (ℤ × ℤ)}

theorem ascending_foldl (h : Ascending m) : Ascending (ts.foldl (fun m t => bump t m) m) := by
  induction ts generalizing m with
  | nil => exact h
  | cons t ts ih => exact ih (ascending_bump h)

theorem ascending_tally : Ascending (tally ts) := ascending_foldl List.Pairwise.nil

theorem mem_foldl {x : ℤ} : x ∈ (ts.foldl (fun m t => bump t m) m).map Prod.fst ↔
    x ∈ ts ∨ x ∈ m.map Prod.fst := by
  induction ts generalizing m with
  | nil => simp
  | cons t ts ih =>
    rw [List.foldl_cons, ih, mem_bump, List.mem_cons]
    tauto

theorem mem_tally {x : ℤ} : x ∈ (tally ts).map Prod.fst ↔ x ∈ ts := by
  rw [tally, mem_foldl]
  simp

theorem sum_foldl (p : ℤ → Bool) :
    (((ts.foldl (fun m t => bump t m) m).filter fun e => p e.1).map Prod.snd).sum =
      ((m.filter fun e => p e.1).map Prod.snd).sum + (ts.countP p : ℤ) := by
  induction ts generalizing m with
  | nil => simp
  | cons t ts ih =>
    rw [List.foldl_cons, ih, sum_bump, List.countP_cons]
    by_cases hp : p t
    · simp [hp]
      omega
    · simp [hp]

theorem sum_tally (p : ℤ → Bool) :
    (((tally ts).filter fun e => p e.1).map Prod.snd).sum = (ts.countP p : ℤ) := by
  rw [tally, sum_foldl]
  simp

end Tally

section Clusters

structure Cluster where
  start : ℤ
  stop : ℤ
  count : ℤ
  deriving DecidableEq, Repr

/-- The cluster stands for the entries: its ends are keys of them, no gap between neighbouring
keys is wider than the tolerance, and it counts them all. -/
structure Covers (tol : ℤ) (c : Cluster) (g : List (ℤ × ℤ)) : Prop where
  startMem : c.start ∈ g.map Prod.fst
  stopMem : c.stop ∈ g.map Prod.fst
  within : ∀ k ∈ g.map Prod.fst, c.start ≤ k ∧ k ≤ c.stop
  linked : ∀ k ∈ g.map Prod.fst, k < c.stop → ∃ k' ∈ g.map Prod.fst, k < k' ∧ k' ≤ k + tol
  counted : c.count = (g.map Prod.snd).sum

/-- Clusters in their order, each with more than the tolerance to the entries behind it. -/
inductive Clustering (tol : ℤ) : List Cluster → List (ℤ × ℤ) → Prop
  | nil : Clustering tol [] []
  | cons {c : Cluster} {g rest : List (ℤ × ℤ)} {cs : List Cluster} : Covers tol c g →
      (∀ k ∈ rest.map Prod.fst, c.stop < k ∧ c.stop + tol < k) → Clustering tol cs rest →
      Clustering tol (c :: cs) (g ++ rest)

def Cluster.Spans (c : Cluster) (k : ℤ) : Prop := c.start ≤ k ∧ k ≤ c.stop

instance (c : Cluster) (k : ℤ) : Decidable (c.Spans k) := inferInstanceAs (Decidable (_ ∧ _))

def Cluster.Reaches (tol : ℤ) (c : Cluster) (t : ℤ) : Prop := c.start - tol ≤ t ∧ t ≤ c.stop + tol

instance (tol : ℤ) (c : Cluster) (t : ℤ) : Decidable (c.Reaches tol t) :=
  inferInstanceAs (Decidable (_ ∧ _))

structure Neighbours (ks : List ℤ) (a b : ℤ) : Prop where
  left : a ∈ ks
  right : b ∈ ks
  lt : a < b
  between : ∀ k ∈ ks, k ≤ a ∨ b ≤ k

theorem neighbours_congr {ks ks' : List ℤ} {a b : ℤ} (h : ∀ k, k ∈ ks ↔ k ∈ ks') :
    Neighbours ks a b ↔ Neighbours ks' a b := by
  constructor
  · intro hab
    exact ⟨(h a).mp hab.left, (h b).mp hab.right, hab.lt, fun k hk => hab.between k ((h k).mpr hk)⟩
  · intro hab
    exact ⟨(h a).mpr hab.left, (h b).mpr hab.right, hab.lt, fun k hk => hab.between k ((h k).mp hk)⟩

/-- The first two keys are neighbours, and the others are those of the tail. -/
theorem neighbours_cons {x y a b : ℤ} {ks : List ℤ} (hasc : (x :: y :: ks).Pairwise (· < ·)) :
    Neighbours (x :: y :: ks) a b ↔ a = x ∧ b = y ∨ Neighbours (y :: ks) a b := by
  have hx := (List.pairwise_cons.mp hasc).1
  have hy := (List.pairwise_cons.mp (List.pairwise_cons.mp hasc).2).1
  have hxy := hx y List.mem_cons_self
  constructor
  · intro h
    have hlt := h.lt
    have hright : b ∈ y :: ks := by
      rcases List.mem_cons.mp h.right with rfl | hb
      · rcases List.mem_cons.mp h.left with rfl | ha
        · exact absurd hlt (lt_irrefl _)
        · exact absurd (hx a ha) (by omega)
      · exact hb
    rcases List.mem_cons.mp h.left with rfl | ha
    · left
      refine ⟨rfl, ?_⟩
      rcases List.mem_cons.mp hright with rfl | hb
      · rfl
      · have hyb := hy b hb
        have hbetween := h.between y (List.mem_cons_of_mem _ List.mem_cons_self)
        omega
    · exact Or.inr ⟨ha, hright, hlt, fun k hk => h.between k (List.mem_cons_of_mem _ hk)⟩
  · rintro (⟨rfl, rfl⟩ | h)
    · refine ⟨List.mem_cons_self, List.mem_cons_of_mem _ List.mem_cons_self, hxy, ?_⟩
      intro k hk
      rcases List.mem_cons.mp hk with rfl | hk
      · exact Or.inl le_rfl
      · rcases List.mem_cons.mp hk with rfl | hk
        · exact Or.inr le_rfl
        · exact Or.inr (hy k hk).le
    · refine ⟨List.mem_cons_of_mem _ h.left, List.mem_cons_of_mem _ h.right, h.lt, ?_⟩
      intro k hk
      rcases List.mem_cons.mp hk with rfl | hk
      · exact Or.inl (hx a h.left).le
      · exact h.between k hk

/-- The time is within the tolerance of two neighbouring keys that are further apart than it. -/
def Straddles (tol : ℤ) (ks : List ℤ) (t : ℤ) : Prop :=
  ∃ a b, Neighbours ks a b ∧ a + tol < b ∧ b - tol ≤ t ∧ t ≤ a + tol

theorem straddles_congr {tol : ℤ} {ks ks' : List ℤ} {t : ℤ} (h : ∀ k, k ∈ ks ↔ k ∈ ks') :
    Straddles tol ks t ↔ Straddles tol ks' t := by
  simp only [Straddles, neighbours_congr h]

variable {tol : ℤ} {cs : List Cluster} {m : List (ℤ × ℤ)}

theorem Covers.start_le {c : Cluster} (h : Covers tol c m) : c.start ≤ c.stop :=
  (h.within _ h.startMem).2

namespace Clustering

theorem ends_mem (h : Clustering tol cs m) {c : Cluster} (hc : c ∈ cs) :
    c.start ∈ m.map Prod.fst ∧ c.stop ∈ m.map Prod.fst := by
  induction h with
  | nil => cases hc
  | cons hcovers _ _ ih =>
    rw [List.map_append]
    rcases List.mem_cons.mp hc with rfl | hc
    · exact ⟨List.mem_append_left _ hcovers.startMem, List.mem_append_left _ hcovers.stopMem⟩
    · exact ⟨List.mem_append_right _ (ih hc).1, List.mem_append_right _ (ih hc).2⟩

theorem start_le (h : Clustering tol cs m) {c : Cluster} (hc : c ∈ cs) : c.start ≤ c.stop := by
  induction h with
  | nil => cases hc
  | cons hcovers _ _ ih =>
    rcases List.mem_cons.mp hc with rfl | hc
    · exact hcovers.start_le
    · exact ih hc

theorem spanned (h : Clustering tol cs m) {k : ℤ} (hk : k ∈ m.map Prod.fst) :
    ∃ c ∈ cs, c.Spans k := by
  induction h with
  | nil => cases hk
  | cons hcovers _ _ ih =>
    rw [List.map_append] at hk
    rcases List.mem_append.mp hk with hk | hk
    · exact ⟨_, List.mem_cons_self, hcovers.within k hk⟩
    · obtain ⟨c, hc, hspans⟩ := ih hk
      exact ⟨c, List.mem_cons_of_mem _ hc, hspans⟩

theorem separated (h : Clustering tol cs m) :
    cs.Pairwise fun c c' => c.stop < c'.start ∧ c.stop + tol < c'.start := by
  induction h with
  | nil => exact List.Pairwise.nil
  | cons _ hgap hrest ih =>
    refine List.pairwise_cons.mpr ⟨?_, ih⟩
    intro c' hc'
    exact hgap _ (hrest.ends_mem hc').1

theorem counted (h : Clustering tol cs m) {c : Cluster} (hc : c ∈ cs) :
    c.count = ((m.filter fun e => decide (c.Spans e.1)).map Prod.snd).sum := by
  induction h with
  | nil => cases hc
  | @cons c₀ g rest cs hcovers hgap hrest ih =>
    rw [List.filter_append, List.map_append, List.sum_append]
    rcases List.mem_cons.mp hc with rfl | hc
    · have hall : g.filter (fun e => decide (c.Spans e.1)) = g := by
        rw [List.filter_eq_self]
        intro e he
        exact decide_eq_true (hcovers.within e.1 (List.mem_map_of_mem he))
      have hnone : rest.filter (fun e => decide (c.Spans e.1)) = [] := by
        rw [List.filter_eq_nil_iff]
        intro e he hspans
        have hle := (of_decide_eq_true hspans).2
        have hlt := (hgap e.1 (List.mem_map_of_mem he)).1
        omega
      rw [hall, hnone, hcovers.counted]
      simp
    · have hnone : g.filter (fun e => decide (c.Spans e.1)) = [] := by
        rw [List.filter_eq_nil_iff]
        intro e he hspans
        have hle := (of_decide_eq_true hspans).1
        have hstop := (hcovers.within e.1 (List.mem_map_of_mem he)).2
        have hlt := (hgap _ (hrest.ends_mem hc).1).1
        omega
      rw [hnone, ih hc]
      simp

theorem total (h : Clustering tol cs m) : (cs.map Cluster.count).sum = (m.map Prod.snd).sum := by
  induction h with
  | nil => rfl
  | cons hcovers _ _ ih => simp [hcovers.counted, ih]

theorem first_le {c : Cluster} (h : Clustering tol (c :: cs) m) {k : ℤ}
    (hk : k ∈ m.map Prod.fst) : c.start ≤ k := by
  cases h with
  | cons hcovers hgap _ =>
    rw [List.map_append] at hk
    rcases List.mem_append.mp hk with hk | hk
    · exact (hcovers.within k hk).1
    · have hlt := (hgap k hk).1
      have hle := hcovers.start_le
      omega

/-- A time that straddles a gap is in reach of the clusters on both sides of it. -/
theorem not_straddles (h : Clustering tol cs m) {t : ℤ}
    (honce : cs.Pairwise fun c c' => ¬ (c.Reaches tol t ∧ c'.Reaches tol t)) :
    ¬ Straddles tol (m.map Prod.fst) t := by
  rintro ⟨a, b, hab, hgapped, hb, ha⟩
  induction h with
  | nil => exact absurd hab.left (by simp)
  | @cons c g rest cs hcovers hgap hrest ih =>
    rw [List.map_append] at hab
    have honce' := List.pairwise_cons.mp honce
    have hlt := hab.lt
    by_cases hin : a ∈ g.map Prod.fst
    · -- The gap is behind this cluster, because inside it every key has a near successor.
      have hstop : a = c.stop := by
        have hle := (hcovers.within a hin).2
        by_contra hne
        obtain ⟨k, hk, hak, hka⟩ := hcovers.linked a hin (by omega)
        have hbetween := hab.between k (List.mem_append_left _ hk)
        omega
      have hbrest : b ∈ rest.map Prod.fst := by
        rcases List.mem_append.mp hab.right with hbg | hbr
        · have := (hcovers.within b hbg).2
          omega
        · exact hbr
      obtain ⟨c', hc', hspans⟩ := hrest.spanned hbrest
      apply honce'.1 c' hc'
      have hstart := hcovers.start_le
      have hnext := (hgap _ (hrest.ends_mem hc').2).1
      unfold Cluster.Spans at hspans
      unfold Cluster.Reaches
      omega
    · have harest : a ∈ rest.map Prod.fst := (List.mem_append.mp hab.left).resolve_left hin
      have hbrest : b ∈ rest.map Prod.fst := by
        rcases List.mem_append.mp hab.right with hbg | hbr
        · have hble := (hcovers.within b hbg).2
          have halt := (hgap a harest).1
          omega
        · exact hbr
      exact ih honce'.2
        ⟨harest, hbrest, hlt, fun k hk => hab.between k (List.mem_append_right _ hk)⟩

theorem single (h : Clustering tol cs m) (htol : tol < 0) {c : Cluster} (hc : c ∈ cs) :
    c.stop = c.start := by
  induction h with
  | nil => cases hc
  | cons hcovers _ _ ih =>
    rcases List.mem_cons.mp hc with rfl | hc
    · by_contra hne
      have hle := hcovers.start_le
      obtain ⟨k, -, hlt, hle'⟩ := hcovers.linked _ hcovers.startMem (by omega)
      omega
    · exact ih hc

theorem straddles_of_rest {g rest : List (ℤ × ℤ)} {c : Cluster} {t : ℤ} (hcovers : Covers tol c g)
    (hgap : ∀ k ∈ rest.map Prod.fst, c.stop < k ∧ c.stop + tol < k)
    (h : Straddles tol (rest.map Prod.fst) t) : Straddles tol ((g ++ rest).map Prod.fst) t := by
  obtain ⟨a, b, hab, hgapped, hb, ha⟩ := h
  rw [List.map_append]
  refine ⟨a, b, ⟨List.mem_append_right _ hab.left, List.mem_append_right _ hab.right, hab.lt, ?_⟩,
    hgapped, hb, ha⟩
  intro k hk
  rcases List.mem_append.mp hk with hk | hk
  · have hle := (hcovers.within k hk).2
    have hlt := (hgap a hab.left).1
    omega
  · exact hab.between k hk

theorem reached_once (h : Clustering tol cs m) {t : ℤ}
    (hnone : ¬ Straddles tol (m.map Prod.fst) t) :
    cs.Pairwise fun c c' => ¬ (c.Reaches tol t ∧ c'.Reaches tol t) := by
  induction h with
  | nil => exact List.Pairwise.nil
  | @cons c g rest cs hcovers hgap hrest ih =>
    refine List.pairwise_cons.mpr ⟨?_, ih fun h => hnone (straddles_of_rest hcovers hgap h)⟩
    rintro c' hc' ⟨hreach, hreach'⟩
    apply hnone
    cases cs with
    | nil => cases hc'
    | cons c₁ cs =>
      have hfirst := (hrest.ends_mem List.mem_cons_self).1
      have hle := hrest.first_le (hrest.ends_mem hc').1
      have hgapped := hgap _ hfirst
      unfold Cluster.Reaches at hreach hreach'
      refine ⟨c.stop, c₁.start, ⟨?_, ?_, hgapped.1, ?_⟩, hgapped.2, by omega, by omega⟩
      · rw [List.map_append]
        exact List.mem_append_left _ hcovers.stopMem
      · rw [List.map_append]
        exact List.mem_append_right _ hfirst
      · intro k hk
        rw [List.map_append] at hk
        rcases List.mem_append.mp hk with hk | hk
        · exact Or.inl (hcovers.within k hk).2
        · exact Or.inr (hrest.first_le hk)

theorem reaches_key_iff (h : Clustering tol cs m) (htol : 0 ≤ tol) {c : Cluster} (hc : c ∈ cs)
    {k : ℤ} (hk : k ∈ m.map Prod.fst) : c.Reaches tol k ↔ c.Spans k := by
  unfold Cluster.Reaches Cluster.Spans
  constructor
  · intro hreach
    obtain ⟨c', hc', hspans⟩ := h.spanned hk
    unfold Cluster.Spans at hspans
    by_cases heq : c = c'
    · rw [heq]
      exact hspans
    · have hapart : cs.Pairwise fun c c' => c.stop + tol < c'.start ∨ c'.stop + tol < c.start :=
        h.separated.imp fun hsep => Or.inl hsep.2
      have hsymm : Std.Symm fun c c' : Cluster => c.stop + tol < c'.start ∨
          c'.stop + tol < c.start :=
        ⟨fun _ _ hsep => hsep.symm⟩
      have hsep := hapart.forall hc hc' heq
      omega
  · intro hspans
    omega

end Clustering

/-- Where each item is taken at most once, no more are taken than there are. -/
theorem sum_countP_le {α β : Type} {P : α → β → Bool} {xs : List α} {ys : List β}
    (h : ∀ y ∈ ys, xs.Pairwise fun a b => ¬ (P a y ∧ P b y)) :
    (xs.map fun x => (ys.countP (P x) : ℤ)).sum ≤ ys.length := by
  induction xs generalizing ys with
  | nil => simp
  | cons x xs ih =>
    -- The items that the first one takes are taken by no other.
    have hrest : ∀ x' ∈ xs, ys.countP (P x') = (ys.filter fun y => !P x y).countP (P x') := by
      intro x' hx'
      rw [List.countP_filter]
      apply List.countP_congr
      intro y hy
      have hexcl := (List.pairwise_cons.mp (h y hy)).1 x' hx'
      cases hxy : P x y <;> cases hx'y : P x' y <;> simp_all
    have hexcl : ∀ y ∈ ys.filter fun y => !P x y, xs.Pairwise fun a b => ¬ (P a y ∧ P b y) :=
      fun y hy => (List.pairwise_cons.mp (h y (List.mem_filter.mp hy).1)).2
    have hle := ih hexcl
    have hmap : xs.map (fun x' => (ys.countP (P x') : ℤ)) =
        xs.map fun x' => ((ys.filter fun y => !P x y).countP (P x') : ℤ) :=
      List.map_congr_left fun x' hx' => by rw [hrest x' hx']
    have hlength := List.length_eq_length_filter_add (l := ys) (P x)
    rw [← List.countP_eq_length_filter] at hlength
    rw [List.map_cons, List.sum_cons, hmap]
    omega

end Clusters

end TimeClusters
