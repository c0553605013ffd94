import RevenueOps.MirroredStores
import RevenueOps.ReconcileConvergence
import RevenueOps.SweepInterleavings

/-! The ledger as a mirror of the reservation rows. Every step of a call or of the sweep is a move
of the two stores, so the ledger agrees along a run exactly when no append of it is late. -/
namespace SweepInterleavings

open FallibleState EconIntents EconLedger Reconcile ReconcileConvergence Governor
open MirroredStores (Stores Move Awaits Settled)

/-- The replayed reservation of an id; nothing where replay fails. -/
def reserved (events : List LedgerEvent) (k : String) : ℤ :=
  match replay events with
  | .ok state => valueAt state.reservedMsat k
  | .error _ => 0

def settings (calls : List (List LedgerEvent)) : List (String × ℤ) :=
  calls.flatMap fun es => es.filterMap setting

def stores (s : Node) : Stores String ℤ :=
  ⟨fun k => dbTruth s.db[k]?, reserved s.events, settings s.calls⟩

/-- What a call appends: nothing that changes spend, and no correction. -/
def CallEvent (e : LedgerEvent) : Prop :=
  e.eventType ≠ .costRecorded ∧ e.eventType ≠ .reconciliationCompleted

structure Valid (s : Node) : Prop where
  replays : ∃ state, replay s.events = .ok state
  calls : ∀ es ∈ s.calls, ∀ e ∈ es, CallEvent e
  sweep : ∀ db ds, s.sweep = .applying db ds → ∀ d ∈ ds, d.resolution = none ∨ Resolves db d

section Events

variable {s t : Node} {e : LedgerEvent}

theorem reserved_of_replay {events : List LedgerEvent} {state : LedgerState}
    (h : replay events = .ok state) : reserved events = valueAt state.reservedMsat := by
  funext k
  simp [reserved, h]

theorem awaits_settings {calls : List (List LedgerEvent)} {k : String} :
    Awaits (settings calls) k ↔ UnderWay calls k := by
  simp only [Awaits, settings, UnderWay, List.mem_flatMap, List.mem_filterMap]
  constructor
  · rintro ⟨v, es, hes, e, he, hv⟩
    exact ⟨es, hes, e, he, v, hv⟩
  · rintro ⟨es, hes, e, he, v, hv⟩
    exact ⟨v, es, hes, e, he, hv⟩

theorem holdEffect_setting (he : CallEvent e) (m : String → ℤ) :
    holdEffect m e = match setting e with
      | some (k, v) => Function.update m k v
      | none => m := by
  unfold holdEffect setting
  cases ht : e.eventType
  case reconciliationCompleted => exact absurd ht he.2
  all_goals rfl

theorem holdEvent_of_call (he : CallEvent e) : HoldEvent e := ⟨he.1, fun h => absurd h he.2⟩

/-- An append that succeeds adds its event; replay goes on and takes the event's effect. -/
theorem appended_eq (h : appended e s = some t) (he : HoldEvent e)
    (hs : ∃ state, replay s.events = .ok state) : t = { s with events := s.events ++ [e] } ∧
      (∃ state, replay t.events = .ok state) ∧
        reserved t.events = holdEffect (reserved s.events) e := by
  obtain ⟨state, hstate⟩ := hs
  obtain ⟨state', hstate', hholds⟩ := replay_snoc hstate he
  have ht : t = { s with events := s.events ++ [e] } := by
    unfold appended at h
    rcases append_cases e ⟨s.events, []⟩ with ⟨-, hok, hev⟩ | ⟨-, ⟨err, herr⟩, -⟩
    · cases happ : append e ⟨s.events, []⟩ with
      | mk r l =>
        rw [happ] at hok hev
        simp only [happ, show r = _ from hok] at h
        rw [← Option.some.inj h, show l.events = _ from hev]
    · cases happ : append e ⟨s.events, []⟩ with
      | mk r l =>
        rw [happ] at herr
        simp only [happ, show r = _ from herr] at h
        simp at h
  subst ht
  refine ⟨rfl, ⟨state', hstate'⟩, ?_⟩
  rw [reserved_of_replay hstate', reserved_of_replay hstate, hholds.reserved]
  rfl

end Events

section Rows

theorem dbTruth_reserveRow (db : DbStates) (rid : String) (sats : ℤ) :
    (fun k => dbTruth (reserveRow db rid sats)[k]?) =
      Function.update (fun k => dbTruth db[k]?) rid (sats * 1000) := by
  funext k
  rw [reserveRow, Std.ExtTreeMap.getElem?_insert]
  by_cases hk : k = rid
  · simp [hk, dbTruth]
  · simp [hk, Ne.symm hk]

theorem dbTruth_releaseRow (db : DbStates) (rid : String) :
    (fun k => dbTruth (releaseRow db rid)[k]?) =
      Function.update (fun k => dbTruth db[k]?) rid 0 := by
  have hsame (h : dbTruth db[rid]? = 0) :
      (fun k => dbTruth db[k]?) = Function.update (fun k => dbTruth db[k]?) rid 0 := by
    rw [← h, Function.update_eq_self]
  unfold releaseRow
  cases hrow : db[rid]? with
  | none => exact hsame (by simp [hrow, dbTruth])
  | some row =>
    by_cases hactive : row.status = "active"
    · funext k
      simp only [hactive, if_true, Std.ExtTreeMap.getElem?_insert]
      by_cases hk : k = rid
      · simp [hk, dbTruth]
      · simp [hk, Ne.symm hk]
    · simp only [hactive, if_false]
      exact hsame (by simp [hrow, dbTruth, hactive])

theorem settings_append (calls : List (List LedgerEvent)) (es : List LedgerEvent) :
    settings (calls ++ [es]) = settings calls ++ es.filterMap setting := by
  simp [settings]

theorem setting_authorized (env : IntentEnvelope) (now : ℤ) :
    setting (authorizedEvent env now) = none := rfl

theorem setting_reserved (env : IntentEnvelope) (rid : String) (msat now : ℤ) :
    setting (reservedEvent env rid msat now) = some (rid, msat) := by
  simp [setting, reservedEvent, valueAt]

theorem grant_settings (env : IntentEnvelope) (rid : String) (now : ℤ) :
    (grantEvents env rid now).filterMap setting = if 0 < env.maxCostMsat.toSatsCeil then
      [(rid, env.maxCostMsat.toSatsCeil * 1000)] else [] := by
  unfold grantEvents
  by_cases hsats : 0 < env.maxCostMsat.toSatsCeil <;>
    simp [hsats, List.filterMap_cons, setting_authorized, setting_reserved]

theorem grant_callEvent (env : IntentEnvelope) (rid : String) (now : ℤ) :
    ∀ e ∈ grantEvents env rid now, CallEvent e := by
  intro e he
  unfold grantEvents at he
  by_cases hsats : 0 < env.maxCostMsat.toSatsCeil
  · simp only [hsats, if_true, List.mem_cons, List.not_mem_nil, or_false] at he
    rcases he with rfl | rfl <;> simp [CallEvent, authorizedEvent, reservedEvent]
  · simp only [hsats, if_false, List.mem_cons, List.not_mem_nil, or_false] at he
    simp [he, CallEvent, authorizedEvent]

/-- Whatever was read when, a divergence of the report resolves to what the rows read stand for. -/
theorem reportOf_resolves {outstanding inFlight : Amounts} {db : DbStates} {now stale : ℤ}
    {report : ReconciliationReport} (h : reportOf outstanding db inFlight now stale = .ok report) :
    ∀ d ∈ report.divergences, d.resolution = none ∨ Resolves db d := by
  unfold reportOf at h
  simp only [Outcome.bind_eq_ok, Outcome.mapM_eq_ok, Outcome.pure_eq_ok] at h
  obtain ⟨classified, hclassified, quarantined, hquarantined, rfl⟩ := h
  intro d hd
  rcases List.mem_append.mp hd with hd | hd
  · have hmem := List.mem_map_of_mem (f := Outcome.ok (ε := EconError))
      (List.reduceOption_mem_iff.mp hd)
    rw [← hclassified, List.mem_map] at hmem
    obtain ⟨k, -, hk⟩ := hmem
    rcases classify_ok (Outcome.ofExcept_eq_ok.mp hk) with ⟨hnone, -⟩ | ⟨d', hd', -, hres, -⟩
    · simp at hnone
    · exact Or.inr (Option.some.inj hd' ▸ hres)
  · have hmem := List.mem_map_of_mem (f := Outcome.ok (ε := EconError))
      (List.reduceOption_mem_iff.mp hd)
    rw [← hquarantined, List.mem_map] at hmem
    obtain ⟨entry, -, hentry⟩ := hmem
    exact Or.inl (quarantine_ok hentry d rfl).2.2

end Rows

section Simulation

variable {s t : Node} {a : Action}

/-- A step as a move of the two stores, late or not like the step. -/
structure Moves (s : Node) (a : Action) (t : Node) (m : Move String ℤ) : Prop where
  valid : Valid t
  move : MirroredStores.Step (stores s) m (stores t)
  timely : MirroredStores.Timely (stores s) m ↔ Timely s a

theorem authorize_moves {env : IntentEnvelope} {now : ℤ} {reservationId : Option String}
    (h : step s (.authorize env now reservationId) = some t) (hs : Valid s) :
    ∃ m, Moves s (.authorize env now reservationId) t m := by
  simp only [step, authorizeStep] at h
  by_cases hmax : u63Max < env.maxCostMsat.toSatsCeil * 1000
  · simp [hmax] at h
  · simp only [hmax, if_false] at h
    obtain rfl := Option.some.inj h
    have hcalls : ∀ es ∈ s.calls ++
        [grantEvents env (effectiveReservationId env reservationId) now], ∀ e ∈ es,
          CallEvent e := by
      intro es hes
      rcases List.mem_append.mp hes with hes | hes
      · exact hs.calls es hes
      · obtain rfl := List.mem_singleton.mp hes
        exact grant_callEvent env _ now
    have hsettings := grant_settings env (effectiveReservationId env reservationId) now
    by_cases hsats : 0 < env.maxCostMsat.toSatsCeil
    · rw [if_pos hsats] at hsettings
      refine ⟨.change (effectiveReservationId env reservationId)
        (env.maxCostMsat.toSatsCeil * 1000), ⟨hs.replays, hcalls, hs.sweep⟩, ?_,
        iff_of_true trivial trivial⟩
      simp only [stores, hsats, if_true, settings_append, hsettings, dbTruth_reserveRow]
      exact .change (stores s) _ _
    · rw [if_neg hsats] at hsettings
      refine ⟨.idle, ⟨hs.replays, hcalls, hs.sweep⟩, ?_, iff_of_true trivial trivial⟩
      simp only [stores, hsats, if_false, settings_append, hsettings, List.append_nil]
      exact .idle (stores s)

theorem release_moves {token : AuthorizationToken} {now : ℤ}
    (h : step s (.release token now) = some t) (hs : Valid s) :
    ∃ m, Moves s (.release token now) t m := by
  obtain rfl := Option.some.inj h
  refine ⟨.change token.reservationId 0, ⟨hs.replays, ?_, hs.sweep⟩, ?_,
    iff_of_true trivial trivial⟩
  · intro es hes
    rcases List.mem_append.mp hes with hes | hes
    · exact hs.calls es hes
    · obtain rfl := List.mem_singleton.mp hes
      simp [CallEvent, releasedEvent]
  · have hset : [releasedEvent token now].filterMap setting = [(token.reservationId, 0)] := by
      simp [setting, releasedEvent]
    simp only [stores, settings_append, hset, dbTruth_releaseRow]
    exact .change (stores s) _ _

theorem refuse_moves {env : IntentEnvelope} {code : Code} {now : ℤ}
    (h : step s (.refuse env code now) = some t) (hs : Valid s) :
    ∃ m, Moves s (.refuse env code now) t m := by
  have he : CallEvent (conflictEvent env code now) := by simp [CallEvent, conflictEvent]
  obtain ⟨rfl, hreplay, hreserved⟩ := appended_eq h (holdEvent_of_call he) hs.replays
  refine ⟨.idle, ⟨hreplay, hs.calls, hs.sweep⟩, ?_, iff_of_true trivial trivial⟩
  have hnone : setting (conflictEvent env code now) = none := rfl
  rw [holdEffect_setting he, hnone] at hreserved
  simp only [stores, hreserved]
  exact .idle (stores s)

theorem record_moves {call : ℕ} (h : step s (.record call) = some t) (hs : Valid s) :
    ∃ m, Moves s (.record call) t m := by
  simp only [step, recordStep] at h
  split at h
  · rename_i e es hcall
    have hlt : call < s.calls.length := (List.getElem?_eq_some_iff.mp hcall).1
    have hmem := List.mem_of_getElem? hcall
    have he : CallEvent e := hs.calls _ hmem e List.mem_cons_self
    obtain ⟨rfl, hreplay, hreserved⟩ := appended_eq h (holdEvent_of_call he) hs.replays
    have hvalid : ∀ fs ∈ s.calls.set call es, ∀ f ∈ fs, CallEvent f := by
      intro fs hfs f hf
      rcases List.mem_or_eq_of_mem_set hfs with hfs | rfl
      · exact hs.calls fs hfs f hf
      · exact hs.calls _ hmem f (List.mem_cons_of_mem e hf)
    have hset : s.calls.set call es = s.calls.take call ++ es :: s.calls.drop (call + 1) :=
      List.set_eq_take_append_cons_drop.trans (if_pos hlt)
    have hsplit : s.calls = s.calls.take call ++ (e :: es) :: s.calls.drop (call + 1) := by
      conv_lhs => rw [← List.take_append_drop call s.calls, List.drop_eq_getElem_cons hlt]
      rw [(List.getElem?_eq_some_iff.mp hcall).2]
    have hafter : settings (s.calls.set call es) = settings (s.calls.take call) ++
        (es.filterMap setting ++ settings (s.calls.drop (call + 1))) := by
      rw [hset]
      simp [settings]
    cases hkey : setting e with
    | none =>
      have hbefore : settings (s.calls.set call es) = settings s.calls := by
        rw [hafter]
        conv_rhs => rw [hsplit]
        simp [settings, hkey]
      rw [holdEffect_setting he, hkey] at hreserved
      refine ⟨.idle, ⟨hreplay, hvalid, hs.sweep⟩, ?_, iff_of_true trivial ?_⟩
      · simp only [stores, hbefore, hreserved]
        exact .idle (stores s)
      · intro e' es' hcall' k v hkv
        obtain ⟨rfl, rfl⟩ := List.cons.inj (Option.some.inj (hcall.symm.trans hcall'))
        simp [hkey] at hkv
    | some kv =>
      obtain ⟨k, v⟩ := kv
      have hbefore : settings s.calls = settings (s.calls.take call) ++ (k, v) ::
          (es.filterMap setting ++ settings (s.calls.drop (call + 1))) := by
        conv_lhs => rw [hsplit]
        simp [settings, hkey]
      rw [holdEffect_setting he, hkey] at hreserved
      refine ⟨.copy (settings (s.calls.take call))
        (es.filterMap setting ++ settings (s.calls.drop (call + 1))) k v,
        ⟨hreplay, hvalid, hs.sweep⟩, ?_, ?_⟩
      · simp only [stores, hafter, hreserved]
        exact .copy (stores s) _ _ k v hbefore
      · simp only [MirroredStores.Timely, ← hafter, awaits_settings]
        constructor
        · intro htimely e' es' hcall' k' v' hkv
          obtain ⟨rfl, rfl⟩ := List.cons.inj (Option.some.inj (hcall.symm.trans hcall'))
          obtain ⟨rfl, rfl⟩ := Prod.ext_iff.mp (Option.some.inj (hkey.symm.trans hkv))
          exact htimely
        · intro htimely
          exact htimely e es hcall k v hkey
  · simp at h

theorem correct_moves {now : ℤ} (h : step s (.correct now) = some t) (hs : Valid s) :
    ∃ m, Moves s (.correct now) t m := by
  simp only [step, correctStep] at h
  split at h
  · rename_i db d ds hsweep
    have hrest : ∀ d' ∈ ds, d'.resolution = none ∨ Resolves db d' :=
      fun d' hd' => hs.sweep db _ hsweep d' (List.mem_cons_of_mem d hd')
    have hsweep' : ∀ db' ds', Sweep.applying db ds = .applying db' ds' →
        ∀ d' ∈ ds', d'.resolution = none ∨ Resolves db' d' := by
      intro db' ds' heq
      obtain ⟨rfl, rfl⟩ := Sweep.applying.inj heq
      exact hrest
    cases hres : d.resolution with
    | none =>
      simp only [hres] at h
      obtain rfl := Option.some.inj h
      refine ⟨.idle, ⟨hs.replays, hs.calls, hsweep'⟩, .idle (stores s), iff_of_true trivial ?_⟩
      intro db' d' ds' heq hne
      obtain ⟨-, hcons⟩ := Sweep.applying.inj (hsweep.symm.trans heq)
      obtain ⟨rfl, -⟩ := List.cons.inj hcons
      exact absurd hres hne
    | some resolution =>
      simp only [hres] at h
      have hd : Resolves db d := (hs.sweep db _ hsweep d List.mem_cons_self).resolve_left
        (by simp [hres])
      split at h
      · rename_i e hcorrection
        have hcorrects := correction_ok hd hres hcorrection
        have hhold : HoldEvent e := ⟨by simp [hcorrects.eventType], fun _ => hcorrects.cost⟩
        obtain ⟨rfl, hreplay, hreserved⟩ := appended_eq h hhold hs.replays
        have heffect : reserved (s.events ++ [e]) =
            Function.update (reserved s.events) d.key (dbTruth db[d.key]?) := by
          rw [hreserved]
          simp only [holdEffect, hcorrects.eventType, hcorrects.reserved, hcorrects.key]
        refine ⟨.overwrite d.key (dbTruth db[d.key]?), ⟨hreplay, hs.calls, hsweep'⟩, ?_, ?_⟩
        · simp only [stores, heffect]
          exact .overwrite (stores s) _ _
        · simp only [MirroredStores.Timely, stores, awaits_settings]
          constructor
          · intro htimely db' d' ds' heq _
            obtain ⟨rfl, hcons⟩ := Sweep.applying.inj (hsweep.symm.trans heq)
            obtain ⟨rfl, -⟩ := List.cons.inj hcons
            exact htimely
          · intro htimely
            exact htimely db d ds hsweep (by simp [hres])
      · simp at h
  · simp at h

theorem read_moves {sweep : Sweep} (ha : ∀ s, Timely s a) (hs : Valid s)
    (hsweep : ∀ db ds, sweep = .applying db ds → ∀ d ∈ ds, d.resolution = none ∨ Resolves db d) :
    ∃ m, Moves s a { s with sweep := sweep } m :=
  ⟨.idle, ⟨hs.replays, hs.calls, hsweep⟩, .idle (stores s), iff_of_true trivial (ha s)⟩

theorem step_moves (h : step s a = some t) (hs : Valid s) : ∃ m, Moves s a t m := by
  cases a with
  | authorize env now reservationId => exact authorize_moves h hs
  | refuse env code now => exact refuse_moves h hs
  | release token now => exact release_moves h hs
  | record call => exact record_moves h hs
  | correct now => exact correct_moves h hs
  | readRows =>
    simp only [step] at h
    split at h
    · obtain rfl := Option.some.inj h
      exact read_moves (fun _ => trivial) hs (by simp)
    · simp at h
  | replayLedger =>
    simp only [step] at h
    split at h
    · obtain rfl := Option.some.inj h
      exact read_moves (fun _ => trivial) hs (by simp)
    · simp at h
  | scanInFlight now =>
    simp only [step] at h
    split at h
    · split at h
      · rename_i report hreport
        obtain rfl := Option.some.inj h
        refine read_moves (fun _ => trivial) hs ?_
        intro db' ds heq
        obtain ⟨rfl, rfl⟩ := Sweep.applying.inj heq
        exact reportOf_resolves hreport
      · simp at h
    · simp at h

theorem settledIds_iff (hs : Valid s) : SettledIds s ↔ Settled (stores s) := by
  obtain ⟨state, hstate⟩ := hs.replays
  have hread := reserved_of_replay hstate
  simp only [Settled, stores, awaits_settings, hread]
  constructor
  · rintro ⟨state', hstate', hall⟩
    obtain rfl := Except.ok.inj (hstate.symm.trans hstate')
    exact hall
  · exact fun hall => ⟨state, hstate, hall⟩

theorem run_simulates {run : List (Node × Action)} (h : Run s run t) (hs : Valid s) :
    ∃ moves, MirroredStores.Run (stores s) moves (stores t) ∧ Valid t ∧
      ((∀ p ∈ moves, MirroredStores.Timely p.1 p.2) ↔ ∀ p ∈ run, Timely p.1 p.2) ∧
      ((∀ p ∈ moves, Settled p.1) ↔ ∀ p ∈ run, SettledIds p.1) := by
  induction h with
  | nil s => exact ⟨[], .nil _, hs, by simp, by simp⟩
  | cons hstep _ ih =>
    obtain ⟨m, hm⟩ := step_moves hstep hs
    obtain ⟨moves, hrun, ht, htimely, hsettled⟩ := ih hm.valid
    refine ⟨_ :: moves, .cons hm.move hrun, ht, ?_, ?_⟩
    · simp only [List.mem_cons, forall_eq_or_imp, hm.timely, htimely]
    · simp only [List.mem_cons, forall_eq_or_imp, settledIds_iff hs, hsettled]

theorem starts_valid (hs : Starts s) : Valid s := by
  obtain ⟨state, hstate, -⟩ := hs.agrees
  exact ⟨⟨state, hstate⟩, by simp [hs.calls], by simp [hs.sweep]⟩

theorem starts_settled (hs : Starts s) : SettledIds s := by
  obtain ⟨state, hstate, hall⟩ := hs.agrees
  exact ⟨state, hstate, fun k _ => hall k⟩

theorem agrees_of_returned (hs : SettledIds s) (hret : Returned s) : LedgerAgrees s := by
  obtain ⟨state, hstate, hall⟩ := hs
  refine ⟨state, hstate, fun k => hall k ?_⟩
  rintro ⟨es, hes, e, he, -⟩
  rw [hret es hes] at he
  simp at he

/-- Along a run from an agreeing state, every id without a call under way agrees in every state
exactly when no append is late; the ledger then agrees once every call has returned. -/
theorem sweep_keeps_ledger_iff {run : List (Node × Action)} (hstart : Starts s)
    (hrun : Run s run t) :
    (((∀ p ∈ run, SettledIds p.1) ∧ SettledIds t) ↔ ∀ p ∈ run, Timely p.1 p.2) ∧
      ((∀ p ∈ run, Timely p.1 p.2) → Returned t → LedgerAgrees t) := by
  obtain ⟨moves, hmoves, ht, htimely, hsettled⟩ := run_simulates hrun (starts_valid hstart)
  have hfirst := (settledIds_iff (starts_valid hstart)).mp (starts_settled hstart)
  have hiff := MirroredStores.run_settled_iff hmoves hfirst
  rw [hsettled, ← settledIds_iff ht, htimely] at hiff
  exact ⟨hiff, fun hall hret => agrees_of_returned (hiff.mpr hall).2 hret⟩

end Simulation

section Alone

def execute : List Action → Node → Option Node
  | [], s => some s
  | a :: as, s => (step s a).bind (execute as)

def trace : List Action → Node → List (Node × Action)
  | [], _ => []
  | a :: as, s => (s, a) :: trace as ((step s a).getD s)

theorem execute_run {as : List Action} {s t : Node} (h : execute as s = some t) :
    Run s (trace as s) t := by
  induction as generalizing s with
  | nil =>
    obtain rfl := Option.some.inj h
    exact .nil s
  | cons a as ih =>
    obtain ⟨u, hstep, hrest⟩ := Option.bind_eq_some_iff.mp h
    have hnext : (step s a).getD s = u := by rw [hstep, Option.getD_some]
    rw [trace, hnext]
    exact .cons hstep (ih hrest)

variable {s : Node} {now : ℤ} {db : DbStates}

theorem correct_alone {d : Divergence} {ds : List Divergence} {applied n : ℕ} {l' : Ledger}
    (hsweep : s.sweep = .applying db (d :: ds))
    (h : applyDivergence now applied d ⟨s.events, []⟩ = (.ok n, l')) :
    l'.faults = [] ∧ step s (.correct now) =
      some { s with events := l'.events, sweep := .applying db ds } := by
  simp only [step, correctStep, hsweep]
  unfold applyDivergence at h
  cases hres : d.resolution with
  | none =>
    simp only [hres] at h
    obtain ⟨-, rfl⟩ := Prod.ext_iff.mp h
    exact ⟨rfl, rfl⟩
  | some resolution =>
    simp only [hres] at h ⊢
    cases hc : correction now d resolution with
    | error err =>
      have hthrow : (Eff.ofExcept (.error err) : Eff Ledger EconError LedgerEvent)
          ⟨s.events, []⟩ = (.err err, ⟨s.events, []⟩) := rfl
      rw [hc, bind_fails hthrow] at h
      simp at h
    | ok e =>
      have hpure : (Eff.ofExcept (.ok e) : Eff Ledger EconError LedgerEvent)
          ⟨s.events, []⟩ = (.ok e, ⟨s.events, []⟩) := rfl
      rw [hc, bind_run hpure] at h
      simp only [appended]
      by_cases hf : AppendFails e ⟨s.events, []⟩
      · obtain ⟨err, faults, happ⟩ := append_fails hf
        have herr : appendEvent e ⟨s.events, []⟩ = (.err err, ⟨s.events, faults⟩) := by
          simp only [Reconcile.appendEvent, happ]
        rw [bind_fails herr] at h
        simp at h
      · have hok : Reconcile.appendEvent e ⟨s.events, []⟩ =
            (.ok (s.events.length + 1), ⟨s.events ++ [e], []⟩) := by
          simp only [Reconcile.appendEvent, append_ok hf, List.tail_nil]
        rw [bind_run hok] at h
        obtain ⟨-, rfl⟩ := Prod.ext_iff.mp h
        simp only [append_ok hf]
        exact ⟨rfl, rfl⟩

theorem corrections_alone {ds : List Divergence} {applied n : ℕ} {l' : Ledger}
    (hsweep : s.sweep = .applying db ds)
    (h : ds.foldlM (applyDivergence now) applied ⟨s.events, []⟩ = (.ok n, l')) :
    execute (List.replicate ds.length (.correct now)) s =
      some { s with events := l'.events, sweep := .applying db [] } := by
  induction ds generalizing s applied with
  | nil =>
    obtain ⟨-, rfl⟩ := Prod.ext_iff.mp h
    rw [← hsweep]
    rfl
  | cons d ds ih =>
    rw [List.foldlM_cons] at h
    cases hd : applyDivergence now applied d ⟨s.events, []⟩ with
    | mk r l =>
      cases r with
      | err err =>
        rw [bind_fails hd] at h
        simp at h
      | panic =>
        have hpanic := bind_panics (k := fun applied => ds.foldlM (applyDivergence now) applied)
          (show (applyDivergence now applied d ⟨s.events, []⟩).1 = .panic by rw [hd])
        rw [h] at hpanic
        simp at hpanic
      | ok applied' =>
        obtain ⟨hfaults, hstep⟩ := correct_alone hsweep hd
        rw [bind_run hd] at h
        have hl : l = ⟨l.events, []⟩ := by rw [← hfaults]
        rw [hl] at h
        have hrest := ih (s := { s with events := l.events, sweep := .applying db ds }) rfl h
        rw [List.length_cons, List.replicate_succ, execute, hstep, Option.bind_some, hrest]

def sweepSteps (divergences : ℕ) (now : ℤ) : List Action :=
  [.readRows, .replayLedger, .scanInFlight now] ++ List.replicate divergences (.correct now)

/-- With nothing in between, the sweep's steps are reconcile and apply. -/
theorem sweep_alone {report : ReconciliationReport} {n : ℕ} {l' : Ledger}
    (hsweep : s.sweep = .waiting)
    (hreport : reconcile s.events s.db now reconcileStaleAfterSeconds = .ok report)
    (happly : apply report now ⟨s.events, []⟩ = (.ok n, l')) :
    execute (sweepSteps report.divergences.length now) s =
      some { s with events := l'.events, sweep := .applying s.db [] } := by
  rw [reconcile_eq, Outcome.bind_eq_ok] at hreport
  obtain ⟨state, hstate, hreport⟩ := hreport
  have hstate := Outcome.ofExcept_eq_ok.mp hstate
  let s₁ : Node := { s with sweep := .rowsRead s.db }
  let s₂ : Node := { s with sweep := .replayed s.db state.reservedMsat }
  let s₃ : Node := { s with sweep := .applying s.db report.divergences }
  have hread : step s .readRows = some s₁ := by simp only [step, hsweep, s₁]
  have hreplay : step s₁ .replayLedger = some s₂ := by simp only [step, hstate, s₁, s₂]
  have hscan : step s₂ (.scanInFlight now) = some s₃ := by simp only [step, hreport, s₂, s₃]
  have hcorrect := corrections_alone (s := s₃) rfl happly
  simp only [sweepSteps, List.cons_append, List.nil_append, execute, hread, hreplay, hscan,
    Option.bind_some]
  exact hcorrect

def sweptNode : Node := ⟨sweptRows, sweptLedger.events, [], .waiting⟩

theorem swept_alone : execute (sweepSteps 5 5000) sweptNode =
    some { sweptNode with events := correctedLedger.events, sweep := .applying sweptRows [] } ∧
      correctedLedger.events.length = sweptLedger.events.length + 4 := by
  have hlength : sweptReport.divergences.length = 5 := by decide +kernel
  have hrun := sweep_alone (s := sweptNode) rfl reconcile_swept apply_swept
  rw [hlength] at hrun
  exact ⟨hrun, by decide +kernel⟩

end Alone

section OneHold

theorem holdId_valid : validIntentId "int-1" = true := by decide

theorem holdCost_nonneg : (0 : ℤ) ≤ 1000 := by decide

theorem holdCost_bounded : 1000 ≤ u63Max := by decide

def holdEnvelope : IntentEnvelope where
  intentId := ⟨"int-1", holdId_valid⟩
  intentType := .rebalance
  idempotencyKey := "key"
  snapshotId := "snapshot"
  expiresAt := ⟨100, by decide, by decide⟩
  target := "1x1x1"
  maxCostMsat := ⟨1000, holdCost_nonneg, holdCost_bounded⟩
  budgetBucket := "rebalance"

def emptyNode : Node := ⟨∅, [], [], .waiting⟩

theorem emptyNode_starts : Starts emptyNode := by
  have hreplay : replay [] = .ok ⟨∅, ∅, 0, ∅, []⟩ := rfl
  exact ⟨rfl, rfl, _, hreplay, fun k => by simp [emptyNode, dbTruth, valueAt]⟩

def reach (as : List Action) : Node := (execute as emptyNode).getD emptyNode

theorem reach_run {as : List Action} (h : (execute as emptyNode).isSome = true) :
    Run emptyNode (trace as emptyNode) (reach as) := by
  obtain ⟨t, ht⟩ := Option.isSome_iff_exists.mp h
  have hreach : reach as = t := by rw [reach, ht, Option.getD_some]
  rw [hreach]
  exact execute_run ht

theorem reach_returned {as : List Action} (h : (reach as).calls.all List.isEmpty = true) :
    Returned (reach as) :=
  fun es hes => List.isEmpty_iff.mp (List.all_eq_true.mp h es hes)

/-- The sweep reads the rows, a hold is taken and recorded, then the sweep reads the ledger. -/
def lateSteps : List Action :=
  [.readRows, .authorize holdEnvelope 10 none, .record 0, .record 0, .replayLedger,
    .scanInFlight 20, .correct 20]

/-- The hold is active in the database and gone from the ledger, with everything finished. -/
theorem late_correction_drops_hold : Starts emptyNode ∧
    Run emptyNode (trace lateSteps emptyNode) (reach lateSteps) ∧ Returned (reach lateSteps) ∧
      (reach lateSteps).sweep.finished = true ∧ ¬LedgerAgrees (reach lateSteps) := by
  refine ⟨emptyNode_starts, reach_run (by decide +kernel), reach_returned (by decide +kernel),
    by decide +kernel, ?_⟩
  rintro ⟨state, hstate, hall⟩
  have hledger : reserved (reach lateSteps).events "key" = 0 := by decide +kernel
  have hrow : dbTruth (reach lateSteps).db["key"]? = 1000 := by decide +kernel
  have hkey := hall "key"
  rw [← reserved_of_replay hstate, hledger, hrow] at hkey
  simp at hkey

def timelyCheck (s : Node) : Action → Bool
  | .record call =>
    match s.calls[call]? with
    | some (e :: es) =>
      match setting e with
      | some (k, v) =>
        (settings (s.calls.set call es)).any (fun w => w.1 = k) || v = dbTruth s.db[k]?
      | none => true
    | _ => true
  | .correct _ =>
    match s.sweep with
    | .applying db (d :: _) =>
      (settings s.calls).any (fun w => w.1 = d.key) || dbTruth db[d.key]? = dbTruth s.db[d.key]?
    | _ => true
  | _ => true

theorem underWay_of_any {calls : List (List LedgerEvent)} {k : String}
    (h : (settings calls).any (fun w => w.1 = k) = true) : UnderWay calls k := by
  obtain ⟨⟨k', v⟩, hw, hk⟩ := List.any_eq_true.mp h
  obtain rfl := of_decide_eq_true hk
  exact awaits_settings.mp ⟨v, hw⟩

theorem timelyCheck_sound {s : Node} {a : Action} (h : timelyCheck s a = true) : Timely s a := by
  cases a with
  | record call =>
    intro e es hcall k v hkey
    simp only [timelyCheck, hcall, hkey, Bool.or_eq_true, decide_eq_true_eq] at h
    exact h.imp underWay_of_any fun hv => hv
  | correct now =>
    intro db d ds hsweep _
    simp only [timelyCheck, hsweep, Bool.or_eq_true, decide_eq_true_eq] at h
    exact h.imp underWay_of_any fun hv => hv
  | _ => trivial

/-- The sweep finds the hold unrecorded, corrects the ledger, and the call records it. -/
def overlappingSteps : List Action :=
  [.authorize holdEnvelope 10 none, .readRows, .replayLedger, .scanInFlight 20, .correct 20,
    .record 0, .record 0]

theorem overlapping_sweep_agrees : LedgerAgrees (reach overlappingSteps) := by
  have hrun : Run emptyNode (trace overlappingSteps emptyNode) (reach overlappingSteps) :=
    reach_run (by decide)
  have hall : (trace overlappingSteps emptyNode).all (fun p => timelyCheck p.1 p.2) = true := by
    decide
  exact (sweep_keeps_ledger_iff emptyNode_starts hrun).2
    (fun p hp => timelyCheck_sound (List.all_eq_true.mp hall p hp))
    (reach_returned (by decide))

end OneHold

end SweepInterleavings
