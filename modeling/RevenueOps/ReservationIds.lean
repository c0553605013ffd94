import RevenueOps.BudgetRailLifecycle

/-! Which row the entry points of the rail reach under a caller's id. A reservation is stored
under the trimmed id and a settlement looks there; a release looks under the id as it came. -/
namespace BudgetRail

open FallibleState SqlTransaction RustText KeyedTable RailTables

namespace RailTables

def Holds (t : RailTables) (rid : String) : Prop :=
  ∃ q, t.spendReservations.find? rid = some q ∧ q.status = .active

theorem holds_putReservation {t : RailTables} {row : SpendReservation} (h : row.status = .active) :
    (t.putReservation row).Holds row.reservationId :=
  ⟨row, by simp, h⟩

theorem flipSpend_frees {t : RailTables} {rid : String} {s : Status} (hs : s ≠ .active) :
    ¬ (t.flipSpend (fun r => r.reservationId = rid) s).Holds rid := by
  rintro ⟨q, hq, hactive⟩
  rw [find_flipSpend] at hq
  cases hfind : t.spendReservations.find? rid with
  | none => simp [hfind] at hq
  | some r =>
    have hid := (find_eq_some_iff.mp hfind).2
    by_cases hr : r.status = .active
    · simp [hfind, spendActive, hr, hid] at hq
      subst hq
      exact hs hactive
    · simp [hfind, spendActive, hr] at hq
      subst hq
      exact hr hactive

theorem flipSpend_keeps {t : RailTables} {rid other : String} {s : Status} (h : t.Holds rid)
    (hne : rid ≠ other) : (t.flipSpend (fun r => r.reservationId = other) s).Holds rid := by
  obtain ⟨q, hq, hactive⟩ := h
  have hid : q.reservationId = rid := (find_eq_some_iff.mp hq).2
  refine ⟨q, ?_, hactive⟩
  rw [find_flipSpend, hq]
  simp [hid, hne]

end RailTables

section Reach

variable [UnicodeCase] {t t' : RailTables} {rid : String}

/-- A call that frees the id: without failures it replies, and whenever it replies it says that
it changed the row and leaves none active under the id. -/
structure Frees (t : RailTables) (call : Call) (rid : String) : Prop where
  replies : ∃ reply, (perform t call []).1 = .ok reply
  freed : ∀ faults reply, (perform t call faults).1 = .ok reply →
    reply = .flag true ∧ ¬ (perform t call faults).2.Holds rid

theorem reserve_holds {req : ReserveRequest} {now : ℤ} {faults : List (Option Fault)}
    {remaining : ℤ}
    (h : perform t (.reserveSpend req now) faults = (.ok (.decision true remaining), t')) :
    t'.Holds (trim req.reservationId) := by
  rcases perform_cases t (.reserveSpend req now) faults with ⟨reply, hreply, heffect⟩ | ⟨hnone, -⟩
  · rw [h] at hreply heffect
    cases hreply
    obtain ⟨row, hid, hactive, -, -, -, -, rfl, -⟩ := heffect
    rw [← hid]
    exact holds_putReservation hactive
  · exact absurd (congrArg Prod.fst h) (hnone _)

theorem release_replies (id : String) :
    (perform t (.releaseSpendReservation id) []).1 =
      .ok (.flag (decide (0 < t.countSpend fun r => r.reservationId = id))) := rfl

theorem frees_of_wp {call : Call} (hreplies : ∃ reply, (perform t call []).1 = .ok reply)
    (h : ∀ faults, wp (exec call) (Atomic t fun reply t' => reply = .flag true ∧ ¬ t'.Holds rid)
      ⟨t, none, faults⟩) : Frees t call rid := by
  refine ⟨hreplies, ?_⟩
  intro faults reply hok
  rcases call_atomic faults (h faults) with ⟨reply', hreply, hfreed⟩ | ⟨hnone, -⟩
  · obtain rfl : reply = reply' := Outcome.ok.inj (hok.symm.trans hreply)
    exact hfreed
  · exact absurd hok (hnone _)

theorem release_frees (h : t.Holds rid) : Frees t (.releaseSpendReservation rid) rid := by
  apply frees_of_wp ⟨_, release_replies rid⟩
  intro faults
  apply wp_reply releaseSpend_spec
  rintro b t' ⟨hb, ht⟩
  have hpos := countSpend_id_pos.mpr h
  rw [hb, ht, decide_eq_true hpos]
  exact ⟨rfl, flipSpend_frees (by decide)⟩

/-- The unified ledger has the row, so the fallback is not reached. -/
theorem releaseBudget_direct (h : t.Holds rid) (faults : List (Option Fault)) :
    wp (releaseBudgetReservation rid) (Atomic t fun b t' =>
      b = true ∧ t' = t.flipSpend (fun r => r.reservationId = rid) .released)
      ⟨t, none, faults⟩ := by
  unfold releaseBudgetReservation
  rw [wp_bind]
  refine wp_mono releaseSpend_spec ?_ (fun _ _ h => h) fun _ h => h
  rintro b d ⟨hx, hb, hd⟩
  obtain rfl : b = true := by rw [hb]; simpa using countSpend_id_pos.mpr h
  exact (wp_pure ..).mpr ⟨hx, rfl, hd⟩

theorem releaseBudget_replies (h : t.Holds rid) :
    (perform t (.releaseBudgetReservation rid) []).1 = .ok (.flag true) := by
  have hpos := countSpend_id_pos.mpr h
  have hfirst : releaseSpendReservation rid ⟨t, none, []⟩ =
      (.ok true, ⟨t.flipSpend (fun r => r.reservationId = rid) .released, none, []⟩) := by
    rw [← decide_eq_true hpos]
    rfl
  have hcall : releaseBudgetReservation rid ⟨t, none, []⟩ =
      (.ok true, ⟨t.flipSpend (fun r => r.reservationId = rid) .released, none, []⟩) :=
    bind_run hfirst
  have hexec := bind_run (k := fun b => pure (Reply.flag b)) hcall
  exact congrArg Prod.fst hexec

theorem releaseBudget_frees (h : t.Holds rid) : Frees t (.releaseBudgetReservation rid) rid := by
  apply frees_of_wp ⟨_, releaseBudget_replies h⟩
  intro faults
  apply wp_reply (releaseBudget_direct h faults)
  rintro b t' ⟨rfl, rfl⟩
  exact ⟨rfl, flipSpend_frees (by decide)⟩

section Settle

variable {actual : Option ℤ} {source : Option String} {now : ℤ}

theorem markSpentInTx_flips (hne : trim rid ≠ "") (h : t.Holds (trim rid)) :
    markSpentInTx (trim rid) actual source false now ⟨t, some t, []⟩ =
      (.ok (.applied true),
        ⟨t, some (t.flipSpend (fun r => r.reservationId = trim rid) .spent), []⟩) := by
  obtain ⟨row, hrow, hactive⟩ := h
  have hpos := countSpend_id_pos.mpr ⟨row, hrow, hactive⟩
  have hquery : sql (query fun t : RailTables => .ok (t.spendReservations.find? (trim rid)))
      ⟨t, some t, []⟩ = (.ok (some row), ⟨t, some t, []⟩) := by
    rw [← hrow]
    rfl
  unfold markSpentInTx
  rw [trim_trim, if_neg hne, bind_run hquery]
  have hflip : sql (updateSpend (fun r => r.reservationId = trim rid) .spent) ⟨t, some t, []⟩ =
      (.ok (t.countSpend fun r => r.reservationId = trim rid),
        ⟨t, some (t.flipSpend (fun r => r.reservationId = trim rid) .spent), []⟩) := rfl
  simp only [bind_run hflip, hpos, Bool.false_eq_true, and_false, if_false, decide_true]
  rfl

theorem mark_replies (hne : trim rid ≠ "") (h : t.Holds (trim rid)) :
    (perform t (.markSpendReservationSpent rid actual source false now) []).1 =
      .ok (.flag true) := by
  have hbegin : sql beginImmediate ⟨t, none, []⟩ = (.ok (), ⟨t, some t, []⟩) := rfl
  have hflips : markSpentInTx (trim rid) actual source false now ⟨t, some t, []⟩ = _ :=
    markSpentInTx_flips hne h
  have hbody := @attempt_run _ _ _ BudgetError _ _ _ _ hflips
  have hcall : markSpendReservationSpent rid actual source false now ⟨t, none, []⟩ =
      (.ok true, ⟨t.flipSpend (fun r => r.reservationId = trim rid) .spent, none, []⟩) := by
    unfold markSpendReservationSpent
    rw [if_neg hne, bind_run hbegin, bind_run hbody]
    rfl
  have hexec := bind_run (k := fun b => pure (Reply.flag b)) hcall
  exact congrArg Prod.fst hexec

/-- Without an event to write, a settlement of a held id flips its row or fails. -/
theorem markSpentInTx_direct {db : RailTables} {c : Connection RailTables} (hdb : c.db = db)
    (htx : c.tx = some t) (hne : trim rid ≠ "") (h : t.Holds (trim rid)) :
    wp (markSpentInTx (trim rid) actual source false now) (Inside db fun r t' =>
      r = .applied true ∧ t' = t.flipSpend (fun r => r.reservationId = trim rid) .spent) c := by
  have hpos := countSpend_id_pos.mpr h
  obtain ⟨row, hrow, -⟩ := h
  unfold markSpentInTx
  rw [trim_trim, if_neg hne]
  refine inside_query hdb htx fun found d hfound hdb htx => ?_
  obtain rfl : some row = found := hrow.symm.trans (Except.ok.inj hfound)
  refine inside_statement hdb htx fun n t' d hn hdb htx => ?_
  obtain ⟨rfl, rfl⟩ := Prod.mk.inj (Except.ok.inj hn)
  simp only [hpos, Bool.false_eq_true, and_false, if_false, decide_true]
  exact inside_pure hdb htx ⟨rfl, rfl⟩

theorem mark_direct (hne : trim rid ≠ "") (h : t.Holds (trim rid)) (faults : List (Option Fault)) :
    wp (markSpendReservationSpent rid actual source false now) (Atomic t fun b t' =>
      b = true ∧ t' = t.flipSpend (fun r => r.reservationId = trim rid) .spent)
      ⟨t, none, faults⟩ := by
  unfold markSpendReservationSpent
  rw [if_neg hne]
  refine atomic_begin rfl rfl fun d hdb htx => ?_
  refine atomic_attempt (markSpentInTx_direct hdb htx hne h) ?_ fun e d hdb => ?_
  · rintro r t' d ⟨rfl, rfl⟩ hdb htx
    exact atomic_commit hdb htx fun d hd hx => (wp_pure ..).mpr ⟨hx, rfl, hd⟩
  · exact atomic_rollbackQuietly hdb fun d hd hx => atomic_throw hd hx

theorem mark_frees (hne : trim rid ≠ "") (h : t.Holds (trim rid)) :
    Frees t (.markSpendReservationSpent rid actual source false now) (trim rid) := by
  apply frees_of_wp ⟨_, mark_replies hne h⟩
  intro faults
  apply wp_reply (mark_direct hne h faults)
  rintro b t' ⟨rfl, rfl⟩
  exact ⟨rfl, flipSpend_frees (by decide)⟩

end Settle

section Grant

theorem grant_id_ne {req : ReserveRequest} {now remaining : ℤ} {faults : List (Option Fault)}
    (h : (perform t (.reserveSpend req now) faults).1 = .ok (.decision true remaining)) :
    trim req.reservationId ≠ "" := by
  intro hempty
  have hrefused :
      ∃ r, reserveSpend req now ⟨t, none, faults⟩ = (.ok (false, r), ⟨t, none, faults⟩) := by
    unfold reserveSpend
    rw [hempty]
    split
    · exact ⟨_, rfl⟩
    · exact ⟨_, rfl⟩
  obtain ⟨r, hr⟩ := hrefused
  have hexec := bind_run (k := fun a => pure (Reply.decision a.1 a.2)) hr
  have hreply : (perform t (.reserveSpend req now) faults).1 = .ok (.decision false r) :=
    congrArg Prod.fst hexec
  rw [hreply] at h
  cases h

/-- A release under another text than the stored id leaves the row active, whatever it says. -/
theorem release_misses {call : Call} {id : String}
    (hcall : call = .releaseSpendReservation id ∨ call = .releaseBudgetReservation id)
    (h : t.Holds rid) (hne : rid ≠ id) : ¬ Frees t call rid := by
  rintro ⟨⟨reply, hreply⟩, hfreed⟩
  obtain ⟨-, hgone⟩ := hfreed [] reply hreply
  rcases perform_cases t call [] with ⟨reply', hreply', heffect⟩ | ⟨hnone, -⟩
  · apply hgone
    rcases hcall with rfl | rfl
    · cases reply' with
      | flag b =>
        obtain ⟨-, ht⟩ := heffect
        rw [ht]
        exact flipSpend_keeps h hne
      | _ => exact heffect.elim
    · cases reply' with
      | flag b =>
        rcases heffect with ⟨-, -, ht⟩ | ⟨-, ht⟩
        · rw [ht]
          exact flipSpend_keeps h hne
        · rw [ht]
          exact h
      | _ => exact heffect.elim
  · exact hnone reply hreply

/-- A granted reservation is released under the id it was requested with exactly when that id
has no surrounding whitespace; a settlement reaches it under every spelling. -/
theorem grant_released_iff {req : ReserveRequest} {now remaining : ℤ}
    {faults : List (Option Fault)}
    (h : perform t (.reserveSpend req now) faults = (.ok (.decision true remaining), t')) :
    (Frees t' (.releaseSpendReservation req.reservationId) (trim req.reservationId) ↔
      trim req.reservationId = req.reservationId) ∧
    (Frees t' (.releaseBudgetReservation req.reservationId) (trim req.reservationId) ↔
      trim req.reservationId = req.reservationId) ∧
    (∀ actual source now', Frees t'
      (.markSpendReservationSpent req.reservationId actual source false now')
      (trim req.reservationId)) ∧
    ∀ actual source now' faults' t'', perform t'
        (.markSpendReservationSpent req.reservationId actual source true now') faults' =
          (.ok (.flag true), t'') → ¬ t''.Holds (trim req.reservationId) := by
  have hheld := reserve_holds h
  have hne := grant_id_ne (congrArg Prod.fst h)
  refine ⟨⟨?_, ?_⟩, ⟨?_, ?_⟩, fun actual source now' => mark_frees hne hheld, ?_⟩
  · intro hfrees
    by_contra hspaced
    exact release_misses (Or.inl rfl) hheld hspaced hfrees
  · intro heq
    rw [heq] at hheld ⊢
    exact release_frees hheld
  · intro hfrees
    by_contra hspaced
    exact release_misses (Or.inr rfl) hheld hspaced hfrees
  · intro heq
    rw [heq] at hheld ⊢
    exact releaseBudget_frees hheld
  · intro actual source now' faults' t'' hmark
    rcases perform_cases t' (.markSpendReservationSpent req.reservationId actual source true now')
      faults' with ⟨reply, hreply, heffect⟩ | ⟨hnone, -⟩
    · rw [hmark] at hreply heffect
      cases hreply
      obtain ⟨row, -, -, e, -, -, -, -, rfl⟩ := heffect
      exact flipSpend_frees (by decide)
    · exact absurd (congrArg Prod.fst hmark) (hnone _)

end Grant

end Reach

section Samples

def sampleRequest (id : String) : ReserveRequest :=
  { reservationId := id, amountSats := 10, category := "rebalance" }

/-- Both requests are granted; the id with the space is not found again. -/
theorem sample_runs :
    (∀ id ∈ ["r1", " r1"], (@perform asciiCase (RailTables.empty none)
      (.reserveSpend (sampleRequest id) 100000) []).1.value = some (.decision true 0)) ∧
    trim "r1" = "r1" ∧
    (@perform asciiCase (@perform asciiCase (RailTables.empty none)
      (.reserveSpend (sampleRequest " r1") 100000) []).2
        (.releaseSpendReservation " r1") []).1.value =
        some (.flag false) := by
  decide +kernel

theorem sample_granted {id : String} (hid : id ∈ ["r1", " r1"]) :
    (@perform asciiCase (RailTables.empty none) (.reserveSpend (sampleRequest id) 100000) []).1 =
      .ok (.decision true 0) :=
  value_eq_some.mp (sample_runs.1 id hid)

/-- A plain id, for which the release finds the row. -/
theorem grant_released_plain :
    @Frees asciiCase (@perform asciiCase (RailTables.empty none)
        (.reserveSpend (sampleRequest "r1") 100000) []).2
      (.releaseSpendReservation "r1") (trim "r1") :=
  ((@grant_released_iff asciiCase (RailTables.empty none) _ (sampleRequest "r1") 100000 0 []
    (Prod.ext (sample_granted (by decide)) rfl)).1).mpr sample_runs.2.1

/-- The same request with a space in front is granted, and the release does not find it. -/
theorem grant_not_released_spaced :
    ¬ ∀ (t t' : RailTables) (req : ReserveRequest) (now remaining : ℤ),
      @perform asciiCase t (.reserveSpend req now) [] = (.ok (.decision true remaining), t') →
        (@perform asciiCase t' (.releaseSpendReservation req.reservationId) []).1 =
          .ok (.flag true) := by
  intro h
  have hreleased := h (RailTables.empty none) _ (sampleRequest " r1") 100000 0
    (Prod.ext (sample_granted (by decide)) rfl)
  have hmissed : (@perform asciiCase (@perform asciiCase (RailTables.empty none)
      (.reserveSpend (sampleRequest " r1") 100000) []).2 (.releaseSpendReservation " r1") []).1 =
        .ok (.flag false) := value_eq_some.mp sample_runs.2.2
  have hflags := hreleased.symm.trans hmissed
  cases hflags

end Samples

end BudgetRail
