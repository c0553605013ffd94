import RevenueOps.StaleSweeps
import RevenueOps.StateMachine

/-! Runs of reservations, parkings, sweeps and settlements: how long the hold of a payment that
is in flight stays in place. -/
namespace StaleSweeps

open FallibleState SqlTransaction KeyedTable RustText BudgetRail RailTables StateMachine

inductive BudgetTransition where
  | applied
  | alreadyTerminal
  | notFound
  deriving DecidableEq, Repr

/-- The state writer's release and mark-spent of a legacy row. -/
def budgetTransition (reservationId : String) (toStatus : Status) : Rail BudgetTransition :=
  immediateTxn (do
    let updated ← sql (updateLegacy (fun r => r.reservationId = reservationId) toStatus)
    if 0 < updated then pure .applied
    else do
      let present ← sql (query fun t =>
        .ok (t.budgetReservations.rows.countP fun r => r.reservationId = reservationId))
      pure (if 0 < present then .alreadyTerminal else .notFound))

/-- UPDATE rebalance_history SET status WHERE id. -/
def setHistory (t : RailTables) (id : ℤ) (status : String) : RailTables :=
  { t with
    rebalanceHistory := t.rebalanceHistory.map fun rows =>
      rows.map fun r => if r.id = id then { r with status := status } else r }

def insertHistory (t : RailTables) (row : HistoryRow) : RailTables :=
  { t with rebalanceHistory := t.rebalanceHistory.map fun rows => rows ++ [row] }

/-- One step on the tables: a call on the rail, a sweep, a transition by the state writer, or
the history's owner at work. -/
inductive Event where
  | rail (call : Call) (faults : List (Option Fault))
  | sweep (s : Sweep) (faults : List (Option Fault))
  | transition (reservationId : String) (toStatus : Status) (faults : List (Option Fault))
  | history (id : ℤ) (status : String)
  | record (row : HistoryRow)

/-- Reserving, settling and releasing by id. The sweeps are steps of their own, and the
operator's reset of the legacy table is no step of these runs. -/
def ByIdCall : Call → Prop
  | .cleanupStaleReservations .. => False
  | .cleanupStaleSpendReservations .. => False
  | .clearAllReservations => False
  | _ => True

def Possible : Event → Prop
  | .rail call _ => ByIdCall call
  | .transition _ toStatus _ => toStatus = .released ∨ toStatus = .spent
  | _ => True

def CallResolves (rid : String) : Call → Prop
  | .releaseSpendReservation id => id = rid
  | .releaseBudgetReservation id => id = rid
  | .markSpendReservationSpent id .. => trim id = rid
  | .markBudgetSpent id _ => trim id = rid ∨ id = rid
  | _ => False

/-- The step settles or releases the reservation, or takes its payment out of flight. -/
def Resolves (rid : String) : Event → Prop
  | .rail call _ => CallResolves rid call
  | .sweep .. => False
  | .transition id _ _ => id = rid
  | .history id status => toString id = rid ∧ status ≠ "pending_settlement"
  | .record _ => False

section Keeps

variable {t t' : RailTables} {rid : String}

structure KeepsHold (t t' : RailTables) (rid : String) : Prop where
  spend : HeldSpend t rid → HeldSpend t' rid
  legacy : HeldLegacy t rid → HeldLegacy t' rid
  parked : Parked t rid → Parked t' rid

theorem KeepsHold.refl (t : RailTables) (rid : String) : KeepsHold t t rid := ⟨id, id, id⟩

theorem flipSpend_keeps {id : String} {s : Status} (hs : s ≠ .active) (hne : id ≠ rid) :
    KeepsHold t (t.flipSpend (fun r => r.reservationId = id) s) rid := by
  refine ⟨?_, fun h => h, fun h => h⟩
  rintro ⟨q, hq, hact⟩
  rw [heldSpend_flipSpend hs]
  exact ⟨q, hq, hact, by simpa [find_key hq] using hne.symm⟩

theorem flipLegacy_keeps {id : String} {s : Status} (hs : s ≠ .active) (hne : id ≠ rid) :
    KeepsHold t (t.flipLegacy (fun r => r.reservationId = id) s) rid := by
  refine ⟨fun h => h, ?_, fun h => h⟩
  rintro ⟨q, hq, hact⟩
  rw [heldLegacy_flipLegacy hs]
  exact ⟨q, hq, hact, by simpa [find_key hq] using hne.symm⟩

theorem putReservation_keeps {row : SpendReservation} (hact : row.status = .active) :
    KeepsHold t (t.putReservation row) rid := by
  refine ⟨?_, fun h => h, fun h => h⟩
  rintro ⟨q, hq, hq'⟩
  unfold HeldSpend
  rw [find_putReservation]
  by_cases hid : row.reservationId = rid
  · exact ⟨row, if_pos hid, hact⟩
  · exact ⟨q, by rw [if_neg hid, hq], hq'⟩

theorem settles_keeps {id : String} {actual : Option ℤ} {recordEvent : Bool} {now : ℤ}
    (h : Settles t id actual recordEvent now t') (hne : trim id ≠ rid) : KeepsHold t t' rid := by
  obtain ⟨row, -, -, h⟩ := h
  have hflip := @flipSpend_keeps t rid (trim id) .spent (by decide) hne
  split at h
  · obtain ⟨e, -, -, -, -, rfl⟩ := h
    exact ⟨hflip.spend, hflip.legacy, hflip.parked⟩
  · rw [h]
    exact hflip

theorem budgetTransition_spec {id : String} {toStatus : Status} {faults : List (Option Fault)} :
    wp (budgetTransition id toStatus)
      (Atomic t fun _ t' => t' = t.flipLegacy (fun r => r.reservationId = id) toStatus)
      ⟨t, none, faults⟩ := by
  refine immediateTxn_spec fun d hdb htx => ?_
  refine inside_statement hdb htx fun updated t' d hst hdb htx => ?_
  obtain ⟨rfl, rfl⟩ := Prod.mk.inj (Except.ok.inj hst)
  split
  · exact inside_pure hdb htx rfl
  · refine inside_query hdb htx fun present d _ hdb htx => ?_
    exact inside_pure hdb htx rfl

theorem transition_keeps {id : String} {toStatus : Status} {faults : List (Option Fault)}
    (hs : toStatus ≠ .active) (hne : id ≠ rid) :
    KeepsHold t (SqlTransaction.call (budgetTransition id toStatus) faults t).2 rid := by
  rcases call_atomic faults (@budgetTransition_spec t id toStatus faults) with ⟨_, -, h⟩ | ⟨-, h⟩
  · rw [h]
    exact flipLegacy_keeps hs hne
  · rw [h]
    exact .refl t rid

theorem setHistory_keeps {id : ℤ} {status : String}
    (hne : ¬ (toString id = rid ∧ status ≠ "pending_settlement")) :
    KeepsHold t (setHistory t id status) rid := by
  refine ⟨fun h => h, fun h => h, ?_⟩
  rintro ⟨rows, hrows, r, hr, hstatus, hid⟩
  refine ⟨_, by rw [setHistory, hrows]; rfl, _, List.mem_map_of_mem hr, ?_⟩
  by_cases h : r.id = id
  · rw [if_pos h]
    refine ⟨?_, hid⟩
    by_contra hother
    exact hne ⟨h ▸ hid, hother⟩
  · rw [if_neg h]
    exact ⟨hstatus, hid⟩

theorem insertHistory_keeps {row : HistoryRow} : KeepsHold t (insertHistory t row) rid := by
  refine ⟨fun h => h, fun h => h, ?_⟩
  rintro ⟨rows, hrows, r, hr, hstatus, hid⟩
  exact ⟨rows ++ [row], by rw [insertHistory, hrows]; rfl, r,
    List.mem_append_left _ hr, hstatus, hid⟩

end Keeps

section Runs

variable [UnicodeCase]

def step (t : RailTables) : Event → RailTables
  | .rail call faults => (perform t call faults).2
  | .sweep s faults => swept t faults s
  | .transition id toStatus faults =>
      (SqlTransaction.call (budgetTransition id toStatus) faults t).2
  | .history id status => setHistory t id status
  | .record row => insertHistory t row

def tables : Machine RailTables Event :=
  { Enabled := fun _ e => Possible e
    next := step }

/-- A step under the sweeps' condition that does not resolve the reservation. -/
def Careful (rid : String) (t : RailTables) (e : Event) : Prop :=
  (∀ s faults, e = .sweep s faults → Spares t s) ∧ ¬ Resolves rid e

variable {t t' : RailTables} {rid : String}

theorem reserves_keeps {req : ReserveRequest} {now : ℤ} {a : Bool × ℤ}
    (h : ReservesFor t req now a t') : KeepsHold t t' rid := by
  unfold ReservesFor at h
  split at h
  · obtain ⟨row, -, hact, -, -, -, -, rfl, -⟩ := h
    exact putReservation_keeps hact
  · rw [h]
    exact .refl t rid

theorem effect_keeps {call : Call} {reply : Reply} (he : Effect t call reply t')
    (hbyId : ByIdCall call) (hne : ¬ CallResolves rid call) : KeepsHold t t' rid := by
  cases call <;> cases reply <;> try exact he.elim
  case reserveSpend.decision => exact reserves_keeps he
  case reserveBudget.decision => exact reserves_keeps he
  case releaseSpendReservation.flag =>
    rw [he.2]
    exact flipSpend_keeps (by decide) hne
  case releaseBudgetReservation.flag =>
    rcases he with ⟨-, -, h⟩ | ⟨-, h⟩
    · rw [h]
      exact flipSpend_keeps (by decide) hne
    · rw [h]
      exact flipLegacy_keeps (by decide) hne
  case markSpendReservationSpent.flag =>
    simp only [Effect] at he
    split at he
    · exact settles_keeps he hne
    · rw [he]
      exact .refl t rid
  case markBudgetSpent.flag =>
    rcases he with ⟨-, h⟩ | ⟨-, h⟩
    · exact settles_keeps h fun heq => hne (.inl heq)
    · rw [h]
      exact flipLegacy_keeps (by decide) fun heq => hne (.inr heq)
  case recordSpendEvent.unit =>
    obtain ⟨e, -, -, -, -, rfl⟩ := he
    exact ⟨fun h => h, fun h => h, fun h => h⟩
  all_goals exact hbyId.elim

theorem swept_history (t : RailTables) (faults : List (Option Fault)) (s : Sweep) :
    (swept t faults s).rebalanceHistory = t.rebalanceHistory := by
  cases s with
  | staleReservations maxAge now =>
    rcases perform_cases t (.cleanupStaleReservations maxAge now) faults with
      ⟨reply, -, he⟩ | ⟨-, he⟩
    · cases reply with
      | count n =>
        obtain ⟨ids, -, h⟩ := he
        rcases h with h | h
        · rw [swept, h]
          rfl
        · rw [swept, h]
          rfl
      | _ => exact he.elim
    · rw [swept, he]
  | staleSpend maxAge category now =>
    rcases staleSpend_cases t maxAge now category faults with h | ⟨-, h⟩
    · rw [h]
    · rw [h]
      rfl
  | writerStale maxAge now =>
    rcases writerStale_cases t maxAge now faults with h | ⟨-, h⟩
    · rw [h]
    · rw [h]
      rfl
  | generic category olderThan limit now =>
    rcases generic_cases t category olderThan limit now faults with h | ⟨-, -, h⟩
    · rw [h]
    · rw [h]
      rfl

/-- A careful step keeps the hold of a parked payment, and keeps it parked. -/
theorem step_keeps {e : Event} (hpossible : Possible e) (hcareful : Careful rid t e)
    (hparked : Parked t rid) : KeepsHold t (step t e) rid := by
  cases e with
  | rail call faults =>
    rcases perform_cases t call faults with ⟨reply, -, he⟩ | ⟨-, he⟩
    · exact effect_keeps he hpossible hcareful.2
    · rw [step, he]
      exact .refl t rid
  | sweep s faults =>
    have hholds := keepsHolds_of_spares (hcareful.1 s faults rfl) faults rid hparked
    refine ⟨hholds.1, hholds.2, fun h => ?_⟩
    unfold Parked
    rw [step, swept_history]
    exact h
  | transition id toStatus faults =>
    refine transition_keeps ?_ hcareful.2
    rcases hpossible with h | h <;> rw [h] <;> decide
  | history id status => exact setHistory_keeps hcareful.2
  | record row => exact insertHistory_keeps

theorem run_keeps {es : List Event} (hrun : tables.Follows (Careful rid) t es)
    (hparked : Parked t rid) : KeepsHold t (tables.run t es) rid := by
  have hinv : Parked (tables.run t es) rid ∧ KeepsHold t (tables.run t es) rid := by
    refine hrun.invariant (I := fun u => Parked u rid ∧ KeepsHold t u rid)
      ⟨hparked, .refl t rid⟩ fun u e hu hpossible hcareful => ?_
    have hstep := step_keeps hpossible hcareful hu.1
    exact ⟨hstep.parked hu.1, fun h => hstep.spend (hu.2.spend h),
      fun h => hstep.legacy (hu.2.legacy h), fun h => hstep.parked (hu.2.parked h)⟩
  exact hinv.2

/-- Which sweeps keep the holds of payments in flight, on any tables and under any failures; and
over every run whose sweeps all meet the condition, a hold stays until its payment is resolved. -/
theorem holds_survive_iff :
    (∀ (t : RailTables) (s : Sweep), (∀ faults, KeepsHolds t (swept t faults s)) ↔ Spares t s) ∧
      ∀ (t : RailTables) (es : List Event) (rid : String),
        tables.Follows (Careful rid) t es → Parked t rid → KeepsHold t (tables.run t es) rid :=
  ⟨keepsHolds_iff, fun _ _ _ hrun hparked => run_keeps hrun hparked⟩

end Runs

/-- A payment in flight holds its budget on both tables since the start of time. -/
def inFlightTables : RailTables :=
  { RailTables.empty (some [⟨42, "pending_settlement"⟩]) with
    spendReservations := ⟨[⟨"42", "rebalance", none, 500, 0, none, none, .active, none⟩],
      List.nodup_singleton _⟩
    budgetReservations := ⟨[⟨"42", 500, 0, "111x222x0", .active⟩], List.nodup_singleton _⟩ }

theorem inFlightTables_parked : Parked inFlightTables "42" :=
  ⟨_, rfl, _, List.mem_singleton_self _, rfl, by decide⟩

theorem parked_hold_stays :
    HeldSpend (@tables asciiCase |>.run inFlightTables
      [.sweep (.staleReservations 86400 1000000) [], .transition "7" .released []]) "42" := by
  let _ := asciiCase
  have hheld : HeldSpend inFlightTables "42" := ⟨_, rfl, rfl⟩
  have hrun : tables.Follows (Careful "42") inFlightTables
      [.sweep (.staleReservations 86400 1000000) [], .transition "7" .released []] := by
    refine ⟨trivial, ⟨?_, id⟩, .inl rfl, ⟨?_, by unfold Resolves; decide⟩, trivial⟩
    · intro s faults he
      cases he
      trivial
    · intro s faults he
      cases he
  exact (holds_survive_iff.2 _ _ _ hrun inFlightTables_parked).spend hheld

/-- Three of the four sweeps let the payment's budget go while it may still settle. -/
theorem sweeps_release_in_flight :
    ¬ KeepsHolds inFlightTables
        (@swept asciiCase inFlightTables [] (.staleSpend 86400 none 1000000)) ∧
      ¬ KeepsHolds inFlightTables
        (@swept asciiCase inFlightTables [] (.staleSpend 86400 (some "rebalance") 1000000)) ∧
      ¬ KeepsHolds inFlightTables
        (@swept asciiCase inFlightTables [] (.writerStale 3600 1000000)) ∧
      ¬ KeepsHolds inFlightTables
        (@swept asciiCase inFlightTables [] (.generic none 86400 100 1000000)) := by
  let _ := asciiCase
  refine ⟨?_, ?_, ?_, ?_⟩
  · intro h
    exact spares_of_keepsHolds h (by decide) _ (List.mem_singleton_self _) rfl (by decide)
      (by decide) inFlightTables_parked
  · intro h
    exact spares_of_keepsHolds h (by decide) _ (List.mem_singleton_self _) rfl (by decide)
      (by decide +kernel) inFlightTables_parked
  · intro h
    exact spares_of_keepsHolds h (by decide) _ (List.mem_singleton_self _) rfl (by decide)
      inFlightTables_parked
  · intro h
    exact spares_of_keepsHolds h (by decide) (by decide)
      ⟨"42", "rebalance", none, 500, 0, none, none, .active, none⟩ (by decide)
      inFlightTables_parked

end StaleSweeps
