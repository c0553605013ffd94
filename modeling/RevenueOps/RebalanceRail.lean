import RevenueOps.KeyedTable
import RevenueOps.SqlTransaction

/-! The durable attempts and reservations of rebalance submissions. An attempt and its reservation
are written by one transaction, and its end and what becomes of the reservation by another one. -/
namespace RebalanceRail

open FallibleState SqlTransaction KeyedTable

inductive Trigger where
  | cycle
  | manual
  | manualForce
  deriving DecidableEq, Repr

inductive AttemptOutcome where
  | success
  | rejected
  | cleanFailureBeforeWrite
  | outcomeUnknown
  deriving DecidableEq, Repr

inductive ReservationStatus where
  | active
  | settled
  | released
  | quarantined
  deriving DecidableEq, Repr

structure RebalanceAttemptIntent where
  requestId : String
  sourceChannel : String
  destChannel : String
  amountSats : ℤ
  maxFeeSats : ℤ
  trigger : Trigger
  submittedAt : ℤ
  deriving DecidableEq

structure RebalanceSettle where
  requestId : String
  outcome : AttemptOutcome
  outcomeDetail : Option String
  feePaidSats : Option ℤ
  paymentHash : Option String
  reservationStatus : ReservationStatus
  resolvedAt : ℤ
  deriving DecidableEq

structure AttemptRecord where
  intent : RebalanceAttemptIntent
  paymentHash : Option String
  outcome : Option AttemptOutcome
  outcomeDetail : Option String
  feePaidSats : Option ℤ
  completedAt : Option ℤ
  deriving DecidableEq

def AttemptRecord.requestId (r : AttemptRecord) : String := r.intent.requestId

structure ReservationRecord where
  attemptRequestId : String
  reservedSats : ℤ
  reservedAt : ℤ
  status : ReservationStatus
  settledFeeSats : Option ℤ
  resolvedAt : Option ℤ
  deriving DecidableEq

/-- No row of these tables is ever deleted, so the rows stand in the order of their ids. -/
@[ext] structure RebalanceTables where
  attempts : Table AttemptRecord String AttemptRecord.requestId
  reservations : List ReservationRecord

def RebalanceTables.empty : RebalanceTables := ⟨.empty, []⟩

inductive RailError where
  | sqlite (context : String) (e : SqlError)
  | alreadyTerminal (requestId : String)
  deriving DecidableEq, Repr

abbrev Rail (α : Type) := Eff (Connection RebalanceTables) RailError α

section Rows

def RebalanceAttemptIntent.record (intent : RebalanceAttemptIntent) : AttemptRecord :=
  { intent := intent
    paymentHash := none
    outcome := none
    outcomeDetail := none
    feePaidSats := none
    completedAt := none }

def RebalanceAttemptIntent.reservation (intent : RebalanceAttemptIntent) : ReservationRecord :=
  { attemptRequestId := intent.requestId
    reservedSats := intent.amountSats
    reservedAt := intent.submittedAt
    status := .active
    settledFeeSats := none
    resolvedAt := none }

def RebalanceSettle.attempt (s : RebalanceSettle) (r : AttemptRecord) : AttemptRecord :=
  { r with
    outcome := some s.outcome
    outcomeDetail := s.outcomeDetail
    feePaidSats := s.feePaidSats
    paymentHash := s.paymentHash.or r.paymentHash
    completedAt := some s.resolvedAt }

def RebalanceSettle.reservation (s : RebalanceSettle) (r : ReservationRecord) : ReservationRecord :=
  { r with
    status := s.reservationStatus
    settledFeeSats := s.feePaidSats
    resolvedAt := some s.resolvedAt }

def RebalanceSettle.selects (s : RebalanceSettle) (r : AttemptRecord) : Bool :=
  r.requestId = s.requestId && r.outcome.isNone

def RebalanceSettle.holds (s : RebalanceSettle) (r : ReservationRecord) : Bool :=
  r.attemptRequestId = s.requestId && r.status = .active

def ReservationRecord.counts (since : ℤ) (r : ReservationRecord) : Bool :=
  (r.status = .active || r.status = .quarantined) && since ≤ r.reservedAt

end Rows

namespace RebalanceTables

variable (t : RebalanceTables)

def insertAttempt (intent : RebalanceAttemptIntent) : Option RebalanceTables :=
  (t.attempts.insert? intent.record).map fun attempts => { t with attempts := attempts }

def insertReservation (intent : RebalanceAttemptIntent) : RebalanceTables :=
  { t with reservations := t.reservations ++ [intent.reservation] }

def updateAttempt (s : RebalanceSettle) : RebalanceTables :=
  { t with attempts := t.attempts.updateWhere s.selects s.attempt fun _ => rfl }

def updateReservation (s : RebalanceSettle) : RebalanceTables :=
  { t with reservations := t.reservations.map fun r => if s.holds r then s.reservation r else r }

/-- The rows whose outcome is null, in the order of their ids. -/
def unresolved : List AttemptRecord := t.attempts.rows.filter fun r => r.outcome.isNone

def reservedSats (since : ℤ) : ℤ :=
  ((t.reservations.filter (ReservationRecord.counts since)).map ReservationRecord.reservedSats).sum

def inserted (intent : RebalanceAttemptIntent) : Option RebalanceTables :=
  (t.insertAttempt intent).map fun u => u.insertReservation intent

/-- What a settlement commits; none where the attempt is not open. -/
def settled (s : RebalanceSettle) : Option RebalanceTables :=
  if t.attempts.rows.any s.selects then some ((t.updateAttempt s).updateReservation s) else none

end RebalanceTables

section Commands

def beginTransaction (context : String) : Rail Unit := Eff.mapErr (.sqlite context) beginImmediate

def execute (context : String) (f : RebalanceTables → Option RebalanceTables) : Rail Unit :=
  Eff.mapErr (.sqlite context) (statement fun t =>
    match f t with
    | some u => .ok ((), u)
    | none => .error .constraint)

def executeUpdate (context : String) (count : RebalanceTables → ℕ)
    (f : RebalanceTables → RebalanceTables) : Rail ℕ :=
  Eff.mapErr (.sqlite context) (statement fun t => .ok (count t, f t))

/-- A transaction that is dropped on an error rolls back. -/
def insertRebalanceAttempt (intent : RebalanceAttemptIntent) : Rail Unit := do
  beginTransaction "begin rebalance intent txn"
  guarded (.sqlite "commit rebalance intent txn") do
    execute "insert rebalance attempt intent (UNIQUE request_id)" fun t => t.insertAttempt intent
    execute "insert active rebalance reservation" fun t => some (t.insertReservation intent)

def settleRebalanceAttempt (s : RebalanceSettle) : Rail Unit := do
  beginTransaction "begin rebalance settle txn"
  guarded (.sqlite "commit rebalance settle txn") do
    let updated ← executeUpdate "settle rebalance attempt outcome"
      (fun t => t.attempts.rows.countP s.selects) fun t => t.updateAttempt s
    if updated = 0 then Eff.throw (.alreadyTerminal s.requestId)
    else execute "flip rebalance reservation" fun t => some (t.updateReservation s)

end Commands

section Atomicity

variable {t db : RebalanceTables} {c : Connection RebalanceTables}

theorem execute_inside {context : String} {f : RebalanceTables → Option RebalanceTables}
    (hdb : c.db = db) (htx : c.tx = some t) :
    wp (execute context f) (Inside db fun _ u => f t = some u) c := by
  unfold execute
  rw [wp_mapErr]
  apply wp_statement_tx htx
  · exact fun e d hd _ => hd.trans hdb
  · intro a u d ha hd hx
    cases hu : f t with
    | none => simp [hu] at ha
    | some v =>
      simp only [hu, Except.ok.injEq, Prod.mk.injEq] at ha
      exact ⟨hd.trans hdb, u, hx, congrArg some ha.2⟩

theorem executeUpdate_inside {context : String} {count : RebalanceTables → ℕ}
    {f : RebalanceTables → RebalanceTables} (hdb : c.db = db) (htx : c.tx = some t) :
    wp (executeUpdate context count f) (Inside db fun n u => n = count t ∧ u = f t) c := by
  unfold executeUpdate
  rw [wp_mapErr]
  apply wp_statement_tx htx
  · exact fun e d hd _ => hd.trans hdb
  · intro a u d ha hd hx
    obtain ⟨rfl, rfl⟩ := Prod.mk.inj (Except.ok.inj ha)
    exact ⟨hd.trans hdb, _, hx, rfl, rfl⟩

/-- The intent and its reservation are there together, or nothing is. -/
theorem insertRebalanceAttempt_atomic (intent : RebalanceAttemptIntent) (hdb : c.db = t)
    (htx : c.tx = none) :
    wp (insertRebalanceAttempt intent) (Atomic t fun _ u => t.inserted intent = some u) c := by
  unfold insertRebalanceAttempt beginTransaction
  refine atomic_begin hdb htx fun d hd hx => atomic_guarded ?_
  refine inside_bind (execute_inside hd hx) fun _ v d' hv hd' hx' => ?_
  refine wp_mono (execute_inside hd' hx') ?_ (fun _ _ h => h) fun _ h => h
  rintro _ e ⟨he, u, hu, hw⟩
  refine ⟨he, u, hu, ?_⟩
  rw [RebalanceTables.inserted, hv]
  exact hw

/-- The attempt ends and its reservation is closed together, once. -/
theorem settleRebalanceAttempt_atomic (s : RebalanceSettle) (hdb : c.db = t) (htx : c.tx = none) :
    wp (settleRebalanceAttempt s) (Atomic t fun _ u => t.settled s = some u) c := by
  unfold settleRebalanceAttempt beginTransaction
  refine atomic_begin hdb htx fun d hd hx => atomic_guarded ?_
  refine inside_bind (executeUpdate_inside hd hx) fun n v d' hv hd' hx' => ?_
  obtain ⟨rfl, rfl⟩ := hv
  refine wp_ite.mpr ⟨fun _ => (wp_throw ..).mpr hd', fun hopen => ?_⟩
  refine wp_mono (execute_inside hd' hx') ?_ (fun _ _ h => h) fun _ h => h
  rintro _ e ⟨he, u, hu, hw⟩
  refine ⟨he, u, hu, ?_⟩
  have hany : t.attempts.rows.any s.selects = true := by
    by_contra hnone
    apply hopen
    rw [List.countP_eq_zero]
    intro r hr hselected
    exact hnone (List.any_eq_true.mpr ⟨r, hr, hselected⟩)
  rw [RebalanceTables.settled, if_pos hany]
  exact hw

end Atomicity

section Reads

variable {t u : RebalanceTables} {intent : RebalanceAttemptIntent} {s : RebalanceSettle}
  {r : AttemptRecord}

theorem inserted_eq_some : t.inserted intent = some u ↔
    intent.requestId ∉ t.attempts.rows.map AttemptRecord.requestId ∧
      u.attempts.rows = t.attempts.rows ++ [intent.record] ∧
      u.reservations = t.reservations ++ [intent.reservation] := by
  simp only [RebalanceTables.inserted, RebalanceTables.insertAttempt, Option.map_map,
    Option.map_eq_some_iff, insert_eq_some]
  constructor
  · rintro ⟨attempts, ⟨hnew, hrows⟩, rfl⟩
    exact ⟨hnew, hrows, rfl⟩
  · rintro ⟨hnew, hrows, hreservations⟩
    exact ⟨u.attempts, ⟨hnew, hrows⟩, RebalanceTables.ext rfl hreservations.symm⟩

theorem settled_eq_some : t.settled s = some u ↔
    (∃ r ∈ t.attempts.rows, s.selects r = true) ∧
      u.attempts.rows = (t.attempts.rows.map fun r => if s.selects r then s.attempt r else r) ∧
      u.reservations = t.reservations.map fun r => if s.holds r then s.reservation r else r := by
  unfold RebalanceTables.settled
  rw [← List.any_eq_true]
  by_cases hopen : t.attempts.rows.any s.selects = true
  · rw [if_pos hopen, Option.some.injEq]
    constructor
    · rintro rfl
      exact ⟨hopen, rfl, rfl⟩
    · rintro ⟨-, hrows, hreservations⟩
      exact RebalanceTables.ext (Table.ext hrows.symm) hreservations.symm
  · simp [hopen]

theorem mem_unresolved : r ∈ t.unresolved ↔ r ∈ t.attempts.rows ∧ r.outcome = none := by
  simp [RebalanceTables.unresolved]

end Reads

end RebalanceRail
