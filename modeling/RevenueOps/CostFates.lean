import RevenueOps.CostHandlings

/-! What the whole log of an entry means for one row: nothing, a settled payment with its cost, or
a payment that was not settled, and was parked once at most. -/
namespace CostFates

open RouteExecutor RebalanceEngine EngineTrail HeldReservations CostBookings CostHandlings

/-- The settled replies of a log, each with the row inserted last before it. -/
def settlements (row : Option ℤ) : List EngineCall → List (ℤ × ExecutionResult)
  | [] => []
  | .insertOrAdoptHistory _ id :: calls => settlements (some id) calls
  | .execute _ reply :: calls =>
    (if reply.success then (row.map fun id => (id, reply)).toList else []) ++ settlements row calls
  | _ :: calls => settlements row calls

def insertedId : EngineCall → Option ℤ
  | .insertOrAdoptHistory _ id => some id
  | _ => none

def insertions (log : List EngineCall) : List ℤ := log.filterMap insertedId

/-- What a log means for a row: it has nothing to do with it, or it inserted it and settled its
payment, or did not. -/
inductive Fate (accountCosts : Bool) (id : ℤ) (log : List EngineCall) : Prop where
  | absent (hwrites : ∀ c ∈ log, ¬ WritesRow id c) (hcosts : costsOf id log = [])
    (hreplies : ∀ q, (id, q) ∉ settlements none log)
  | settled (q : ExecutionResult) (hinsert : id ∈ insertions log) (hparks : parkings id log = 0)
    (hreplies : ∀ p, (id, p) ∈ settlements none log ↔ p = q)
    (hcharged : Charged (reportedFee accountCosts q) (costsOf id log))
  | unsettled (hinsert : id ∈ insertions log) (hparks : parkings id log ≤ 1)
    (hcosts : costsOf id log = []) (hreplies : ∀ q, (id, q) ∉ settlements none log)

variable {accountCosts : Bool} {id : ℤ} {row : Option ℤ} {cs ds : List EngineCall}
  {handlings : List Handling}

@[simp] theorem insertions_append : insertions (cs ++ ds) = insertions cs ++ insertions ds :=
  List.filterMap_append

theorem insertions_alone (h : Alone id cs) : insertions cs = [] := by
  refine List.filterMap_eq_nil_iff.mpr fun c hc => ?_
  have hkind := (h c hc).1
  cases c <;> simp_all [kind, insertedId]

/-- Without an insertion the replies stay with the row before. -/
theorem settlements_alone (h : Alone id cs) : settlements row (cs ++ ds) =
    (settledReplies cs).flatMap (fun q => (row.map fun i => (i, q)).toList) ++
      settlements row ds := by
  induction cs with
  | nil => rfl
  | cons c cs ih =>
    have hrest := ih fun d hd => h d (List.mem_cons_of_mem _ hd)
    have hkind := (h c List.mem_cons_self).1
    cases c
    case insertOrAdoptHistory => exact absurd rfl hkind
    case execute req reply =>
      cases hs : reply.success <;> simp [settlements, settledReplies, hs, hrest]
    all_goals exact hrest

theorem settlements_handlings (h : ∀ g ∈ handlings, Alone g.id g.calls) :
    settlements row (handlings.flatMap Handling.log) =
      handlings.flatMap fun g => (settledReplies g.calls).map (Prod.mk g.id) := by
  induction handlings generalizing row with
  | nil => rfl
  | cons g handlings ih =>
    have hrest := @ih (some g.id) fun d hd => h d (List.mem_cons_of_mem _ hd)
    have hfirst := @settlements_alone g.id (some g.id) g.calls
      (handlings.flatMap Handling.log) (h g List.mem_cons_self)
    rw [hrest] at hfirst
    refine hfirst.trans ?_
    rw [List.flatMap_cons]
    congr 1
    induction settledReplies g.calls with
    | nil => rfl
    | cons q replies ih => exact congrArg ((g.id, q) :: ·) ih

theorem insertions_handlings (h : ∀ g ∈ handlings, Alone g.id g.calls) :
    insertions (handlings.flatMap Handling.log) = handlings.map Handling.id := by
  induction handlings with
  | nil => rfl
  | cons g handlings ih =>
    rw [List.flatMap_cons, insertions_append, ih fun d hd => h d (List.mem_cons_of_mem _ hd),
      List.map_cons]
    exact congrArg (g.id :: · ++ _) (insertions_alone (h g List.mem_cons_self))

theorem handlings_head (handlings : List Handling) :
    ∀ cost, (handlings.flatMap Handling.log).head? ≠ some (.recordRebalanceCost cost) := by
  cases handlings with
  | nil => exact fun _ => nofun
  | cons g handlings => exact fun _ => nofun

theorem bookings_handlings (h : ∀ g ∈ handlings, Handled accountCosts g.id g.calls) :
    bookings none (handlings.flatMap Handling.log) =
      handlings.flatMap fun g => (costCalls g.calls).map (Prod.mk g.id) := by
  induction handlings with
  | nil => rfl
  | cons g handlings ih =>
    rw [List.flatMap_cons, bookings_append (handlings_head handlings),
      ih fun d hd => h d (List.mem_cons_of_mem _ hd), List.flatMap_cons]
    exact congrArg (· ++ _) (h g List.mem_cons_self).booked

theorem costsOf_handling {g : Handling}
    (h : ∀ d ∈ g :: handlings, Handled accountCosts d.id d.calls) :
    costsOf id ((g :: handlings).flatMap Handling.log) =
      (if g.id = id then costCalls g.calls else []) ++
        costsOf id (handlings.flatMap Handling.log) := by
  unfold costsOf
  rw [bookings_handlings h, bookings_handlings fun d hd => h d (List.mem_cons_of_mem _ hd),
    List.flatMap_cons, List.filter_append, List.map_append]
  by_cases hid : g.id = id
  · rw [if_pos hid, ← hid, filter_row_self]
  · rw [if_neg hid, filter_row_other _ hid]

theorem mem_settlements_handlings (h : ∀ g ∈ handlings, Alone g.id g.calls) {q : ExecutionResult} :
    (id, q) ∈ settlements row (handlings.flatMap Handling.log) ↔
      ∃ g ∈ handlings, g.id = id ∧ q ∈ settledReplies g.calls := by
  rw [settlements_handlings h]
  simp only [List.mem_flatMap, List.mem_map, Prod.mk.injEq]
  constructor
  · rintro ⟨g, hg, p, hp, rfl, rfl⟩
    exact ⟨g, hg, rfl, hp⟩
  · rintro ⟨g, hg, rfl, hq⟩
    exact ⟨g, hg, q, hq, rfl, rfl⟩

theorem writes_handling {g : Handling} (h : Alone g.id g.calls) (hne : g.id ≠ id) :
    ∀ c ∈ g.log, ¬ WritesRow id c := by
  intro c hc hwrites
  rcases List.mem_cons.mp hc with rfl | hc
  · exact hne hwrites
  · exact hne ((h c hc).2 id hwrites).symm

theorem parkings_of_no_writes (h : ∀ c ∈ cs, ¬ WritesRow id c) : parkings id cs = 0 := by
  refine List.countP_eq_zero.mpr fun c hc => ?_
  have hno := h c hc
  cases c <;> simp_all [WritesRow]

theorem fate_self {g : Handling} (h : ∀ d ∈ g :: handlings, Handled accountCosts d.id d.calls)
    (hother : ∀ d ∈ handlings, d.id ≠ g.id)
    (hrest : Fate accountCosts g.id (handlings.flatMap Handling.log)) :
    Fate accountCosts g.id ((g :: handlings).flatMap Handling.log) := by
  have hmine := h g List.mem_cons_self
  have halone : ∀ d ∈ g :: handlings, Alone d.id d.calls := fun d hd => (h d hd).alone
  have hinsert : g.id ∈ insertions ((g :: handlings).flatMap Handling.log) := by
    rw [insertions_handlings halone]
    exact List.mem_cons_self
  have hreplies : ∀ q, (g.id, q) ∈ settlements none ((g :: handlings).flatMap Handling.log) ↔
      q ∈ settledReplies g.calls := by
    intro q
    rw [mem_settlements_handlings halone]
    constructor
    · rintro ⟨d, hd, hid, hq⟩
      rcases List.mem_cons.mp hd with rfl | hd
      · exact hq
      · exact absurd hid (hother d hd)
    · exact fun hq => ⟨g, List.mem_cons_self, rfl, hq⟩
  have hnowhere : g.id ∉ insertions (handlings.flatMap Handling.log) := by
    rw [insertions_handlings fun d hd => halone d (List.mem_cons_of_mem _ hd)]
    rintro hmem
    obtain ⟨d, hd, hid⟩ := List.mem_map.mp hmem
    exact hother d hd hid
  cases hrest with
  | settled q hin => exact absurd hin hnowhere
  | unsettled hin => exact absurd hin hnowhere
  | absent hwrites hcosts _ =>
    have hall : costsOf g.id ((g :: handlings).flatMap Handling.log) = costCalls g.calls := by
      rw [costsOf_handling h, if_pos rfl, hcosts, List.append_nil]
    have hparks : parkings g.id ((g :: handlings).flatMap Handling.log) =
        parkings g.id g.calls := by
      rw [List.flatMap_cons, parkings_append, parkings_of_no_writes hwrites, Nat.add_zero,
        Handling.log, parkings, List.countP_cons_of_neg (by simp)]
      rfl
    rcases hmine.fate with ⟨hnone, q, hq, hcharged⟩ | ⟨hfree, hsilent, hone⟩
    · refine .settled q hinsert (hparks.trans hnone) (fun p => ?_) (hall ▸ hcharged)
      rw [hreplies, hq, List.mem_singleton]
    · refine .unsettled hinsert (hparks.trans_le hone) (hall.trans hfree) fun q => ?_
      rw [hreplies, hsilent]
      exact List.not_mem_nil

theorem fate_other {g : Handling} (h : ∀ d ∈ g :: handlings, Handled accountCosts d.id d.calls)
    (hne : g.id ≠ id) (hrest : Fate accountCosts id (handlings.flatMap Handling.log)) :
    Fate accountCosts id ((g :: handlings).flatMap Handling.log) := by
  have halone : ∀ d ∈ g :: handlings, Alone d.id d.calls := fun d hd => (h d hd).alone
  have hwritesNot := writes_handling (halone g List.mem_cons_self) hne
  have hcosts : costsOf id ((g :: handlings).flatMap Handling.log) =
      costsOf id (handlings.flatMap Handling.log) := by
    rw [costsOf_handling h, if_neg hne, List.nil_append]
  have hparks : parkings id ((g :: handlings).flatMap Handling.log) =
      parkings id (handlings.flatMap Handling.log) := by
    rw [List.flatMap_cons, parkings_append, parkings_of_no_writes hwritesNot, Nat.zero_add]
  have hreplies : ∀ q, (id, q) ∈ settlements none ((g :: handlings).flatMap Handling.log) ↔
      (id, q) ∈ settlements none (handlings.flatMap Handling.log) := by
    intro q
    rw [mem_settlements_handlings halone,
      mem_settlements_handlings fun d hd => halone d (List.mem_cons_of_mem _ hd)]
    constructor
    · rintro ⟨d, hd, hid, hq⟩
      rcases List.mem_cons.mp hd with rfl | hd
      · exact absurd hid hne
      · exact ⟨d, hd, hid, hq⟩
    · rintro ⟨d, hd, hid, hq⟩
      exact ⟨d, List.mem_cons_of_mem _ hd, hid, hq⟩
  have hinsert : id ∈ insertions (handlings.flatMap Handling.log) →
      id ∈ insertions ((g :: handlings).flatMap Handling.log) := by
    intro hmem
    rw [List.flatMap_cons, insertions_append]
    exact List.mem_append_right _ hmem
  cases hrest with
  | absent hwrites hfree hsilent =>
    refine .absent ?_ (hcosts.trans hfree) fun q hq => hsilent q ((hreplies q).mp hq)
    exact List.forall_mem_append.mpr ⟨hwritesNot, hwrites⟩
  | settled q hin hnone honly hcharged =>
    refine .settled q (hinsert hin) (hparks.trans hnone) (fun p => ?_) (hcosts ▸ hcharged)
    exact (hreplies p).trans (honly p)
  | unsettled hin hone hfree hsilent =>
    exact .unsettled (hinsert hin) (hparks.trans_le hone) (hcosts.trans hfree) fun q hq =>
      hsilent q ((hreplies q).mp hq)

theorem fate_handlings (h : ∀ g ∈ handlings, Handled accountCosts g.id g.calls)
    (hdistinct : (handlings.map Handling.id).Nodup) :
    Fate accountCosts id (handlings.flatMap Handling.log) := by
  induction handlings with
  | nil => exact .absent (List.forall_mem_nil _) rfl fun q => List.not_mem_nil
  | cons g handlings ih =>
    obtain ⟨hfresh, hdistinct⟩ := List.nodup_cons.mp hdistinct
    have hrest := ih (fun d hd => h d (List.mem_cons_of_mem _ hd)) hdistinct
    by_cases hid : g.id = id
    · subst hid
      refine fate_self h (fun d hd heq => ?_) hrest
      exact hfresh (heq ▸ List.mem_map_of_mem hd)
    · exact fate_other h hid hrest

theorem settlements_idle (h : Idle cs) : settlements row (cs ++ ds) = settlements row ds := by
  induction cs with
  | nil => rfl
  | cons c cs ih =>
    have hc := h c List.mem_cons_self
    have hrest := ih fun d hd => h d (List.mem_cons_of_mem _ hd)
    cases c <;> simp_all [isIdle, settlements]

theorem Fate.after_idle {log : List EngineCall} (hi : Idle cs) (h : Fate accountCosts id log) :
    Fate accountCosts id (cs ++ log) := by
  have hwritesNot : ∀ c ∈ cs, ¬ WritesRow id c := by
    intro c hc hwrites
    exact absurd ((hi.alone (id + 1) c hc).2 id hwrites) (by omega)
  have hcosts : costsOf id (cs ++ log) = costsOf id log := by
    unfold costsOf
    rw [bookings_idle_append hi]
  have hparks : parkings id (cs ++ log) = parkings id log := by
    rw [parkings_append, hi.parkings, Nat.zero_add]
  have hinsert : id ∈ insertions log → id ∈ insertions (cs ++ log) := by
    intro hmem
    rw [insertions_append]
    exact List.mem_append_right _ hmem
  have hreplies : settlements none (cs ++ log) = settlements none log := settlements_idle hi
  cases h with
  | absent hwrites hfree hsilent =>
    refine .absent (List.forall_mem_append.mpr ⟨hwritesNot, hwrites⟩) (hcosts.trans hfree) ?_
    rwa [hreplies]
  | settled q hin hnone honly hcharged =>
    refine .settled q (hinsert hin) (hparks.trans hnone) ?_ (hcosts ▸ hcharged)
    rwa [hreplies]
  | unsettled hin hone hfree hsilent =>
    refine .unsettled (hinsert hin) (hparks.trans_le hone) (hcosts.trans hfree) ?_
    rwa [hreplies]

theorem costCalls_handlings (h : ∀ g ∈ handlings, Handled accountCosts g.id g.calls) :
    costCalls (handlings.flatMap Handling.log) =
      (bookings none (handlings.flatMap Handling.log)).map Prod.snd := by
  induction handlings with
  | nil => rfl
  | cons g handlings ih =>
    have hrest := ih fun d hd => h d (List.mem_cons_of_mem _ hd)
    rw [bookings_handlings fun d hd => h d (List.mem_cons_of_mem _ hd)] at hrest
    rw [bookings_handlings h, List.flatMap_cons, List.flatMap_cons, costCalls_append, hrest,
      List.map_append, List.map_map]
    exact congrArg (· ++ _) (List.map_id _).symm

theorem Handles.split {log : List EngineCall} (h : Handles accountCosts log)
    (hpos : ∀ i ∈ insertions log, 0 < i) :
    ∃ (front : List EngineCall) (handlings : List Handling), Idle front ∧
      log = front ++ handlings.flatMap Handling.log ∧
      insertions log = handlings.map Handling.id ∧
      ∀ g ∈ handlings, Handled accountCosts g.id g.calls := by
  obtain ⟨front, handlings, hidle, rfl, hall⟩ := h
  have hfront : insertions front = [] := insertions_alone (hidle.alone 0)
  rw [insertions_append, hfront, List.nil_append] at hpos ⊢
  have hmem : ∀ g ∈ handlings, g.id ∈ insertions (handlings.flatMap Handling.log) := by
    intro g hg
    obtain ⟨before, after, rfl⟩ := List.append_of_mem hg
    rw [List.flatMap_append, List.flatMap_cons, insertions_append, insertions_append]
    exact List.mem_append_right _ (List.mem_append_left _ List.mem_cons_self)
  have hhandled : ∀ g ∈ handlings, Handled accountCosts g.id g.calls :=
    fun g hg => hall g hg (hpos _ (hmem g hg))
  exact ⟨front, handlings, hidle, rfl, insertions_handlings fun g hg => (hhandled g hg).alone,
    hhandled⟩

theorem Handles.fate {log : List EngineCall} (h : Handles accountCosts log)
    (hdistinct : (insertions log).Nodup) (hpos : ∀ i ∈ insertions log, 0 < i) (id : ℤ) :
    Fate accountCosts id log := by
  obtain ⟨front, handlings, hidle, rfl, hids, hall⟩ := Handles.split h hpos
  rw [hids] at hdistinct
  exact (fate_handlings hall hdistinct).after_idle hidle

theorem Handles.booked {log : List EngineCall} (h : Handles accountCosts log)
    (hpos : ∀ i ∈ insertions log, 0 < i) :
    costCalls log = (bookings none log).map Prod.snd := by
  obtain ⟨front, handlings, hidle, rfl, hids, hall⟩ := Handles.split h hpos
  rw [costCalls_append, hidle.costCalls, List.nil_append, bookings_idle_append hidle]
  exact costCalls_handlings hall

end CostFates
