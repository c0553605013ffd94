import RevenueOps.Governor
import RevenueOps.Reconcile

/-! One reconciliation sweep among authorize and release calls that complete without error.
The sweep's reads and appends, and a call's write to the database and its appends, are steps of
their own; between two steps of one party the others can take theirs. -/
namespace SweepInterleavings

open FallibleState EconIntents IntentRegistry EconLedger Reconcile Governor

def reconcileStaleAfterSeconds : ℤ := 3600

/-- What reconcile computes from the replay, the rows and the executions in flight. -/
def reportOf (outstanding : Amounts) (db : DbStates) (inFlight : Amounts)
    (now staleAfterSeconds : ℤ) : Outcome EconError ReconciliationReport := do
  let keys := reconcileKeys outstanding db inFlight
  let classified ← keys.mapM fun k => .ofExcept (classify outstanding db k)
  let quarantined ← inFlight.toList.mapM (quarantine outstanding db now staleAfterSeconds)
  pure
    { checked := keys.length
      matched := classified.countP Option.isNone
      divergences := classified.reduceOption ++ quarantined.reduceOption }

theorem reconcile_eq (events : List LedgerEvent) (db : DbStates) (now stale : ℤ) :
    reconcile events db now stale = Outcome.ofExcept (replay events) >>= fun state =>
      reportOf state.reservedMsat db (startedWithoutTerminal events) now stale := rfl

/-- Where run_reconciliation_sweep stands, with what it read so far. -/
inductive Sweep where
  | waiting
  | rowsRead (db : DbStates)
  | replayed (db : DbStates) (outstanding : Amounts)
  | applying (db : DbStates) (divergences : List Divergence)

def Sweep.finished : Sweep → Bool
  | applying _ [] => true
  | _ => false

/-- A call between its write to the database and its return is the events it still appends. -/
structure Node where
  db : DbStates
  events : List LedgerEvent
  calls : List (List LedgerEvent)
  sweep : Sweep

inductive Action where
  | authorize (env : IntentEnvelope) (now : ℤ) (reservationId : Option String)
  | refuse (env : IntentEnvelope) (code : Code) (now : ℤ)
  | release (token : AuthorizationToken) (now : ℤ)
  | record (call : ℕ)
  | readRows
  | replayLedger
  | scanInFlight (now : ℤ)
  | correct (now : ℤ)

def reserveRow (db : DbStates) (rid : String) (sats : ℤ) : DbStates :=
  db.insert rid ⟨"active", sats⟩

def releaseRow (db : DbStates) (rid : String) : DbStates :=
  match db[rid]? with
  | some row => if row.status = "active" then
        db.insert rid { row with status := "released" } else db
  | none => db

def appended (e : LedgerEvent) (s : Node) : Option Node :=
  match append e ⟨s.events, []⟩ with
  | (.ok _, l) => some { s with events := l.events }
  | (.error _, _) => none

def authorizeStep (env : IntentEnvelope) (now : ℤ) (reservationId : Option String) (s : Node) :
    Option Node :=
  let sats := env.maxCostMsat.toSatsCeil
  let rid := effectiveReservationId env reservationId
  if u63Max < sats * 1000 then none
  else some
    { s with
      db := if 0 < sats then reserveRow s.db rid sats else s.db
      calls := s.calls ++ [grantEvents env rid now] }

def recordStep (call : ℕ) (s : Node) : Option Node :=
  match s.calls[call]? with
  | some (e :: es) => appended e { s with calls := s.calls.set call es }
  | _ => none

def correctStep (now : ℤ) (s : Node) : Option Node :=
  match s.sweep with
  | .applying db (d :: ds) =>
    match d.resolution with
    | none => some { s with sweep := .applying db ds }
    | some resolution =>
      match correction now d resolution with
      | .ok e => appended e { s with sweep := .applying db ds }
      | .error _ => none
  | _ => none

/-- One step of a call or of the sweep. An authorize that is refused leaves at most an audit
event; a release is asked whatever the row is. -/
def step (s : Node) : Action → Option Node
  | .authorize env now reservationId => authorizeStep env now reservationId s
  | .refuse env code now => appended (conflictEvent env code now) s
  | .release token now => some
      { s with
        db := releaseRow s.db token.reservationId
        calls := s.calls ++ [[releasedEvent token now]] }
  | .record call => recordStep call s
  | .readRows =>
    match s.sweep with
    | .waiting => some { s with sweep := .rowsRead s.db }
    | _ => none
  | .replayLedger =>
    match s.sweep, replay s.events with
    | .rowsRead db, .ok state => some { s with sweep := .replayed db state.reservedMsat }
    | _, _ => none
  | .scanInFlight now =>
    match s.sweep with
    | .replayed db outstanding =>
      match reportOf outstanding db (startedWithoutTerminal s.events) now
          reconcileStaleAfterSeconds with
      | .ok report => some { s with sweep := .applying db report.divergences }
      | _ => none
    | _ => none
  | .correct now => correctStep now s

inductive Run : Node → List (Node × Action) → Node → Prop where
  | nil (s : Node) : Run s [] s
  | cons {s t u : Node} {a : Action} {run : List (Node × Action)} :
      step s a = some t → Run t run u → Run s ((s, a) :: run) u

def LedgerAgrees (s : Node) : Prop :=
  ∃ state, replay s.events = .ok state ∧ ∀ k, valueAt state.reservedMsat k = dbTruth s.db[k]?

structure Starts (s : Node) : Prop where
  calls : s.calls = []
  sweep : s.sweep = .waiting
  agrees : LedgerAgrees s

def Returned (s : Node) : Prop := ∀ es ∈ s.calls, es = []

def setting (e : LedgerEvent) : Option (String × ℤ) :=
  match e.eventType with
  | .budgetReserved => some (e.idempotencyKey, valueAt e.amounts "reserved_msat")
  | .reservationReleased => some (e.idempotencyKey, 0)
  | _ => none

def UnderWay (calls : List (List LedgerEvent)) (k : String) : Prop :=
  ∃ es ∈ calls, ∃ e ∈ es, ∃ v, setting e = some (k, v)

/-- The id's replayed reservation is what its row stands for, unless a call is under way. -/
def SettledIds (s : Node) : Prop :=
  ∃ state, replay s.events = .ok state ∧
    ∀ k, ¬UnderWay s.calls k → valueAt state.reservedMsat k = dbTruth s.db[k]?

/-- An append that sets a reservation is not late: the row still is what the call wrote, or what
the sweep read, unless another call on the id has its own append to make. -/
def Timely (s : Node) : Action → Prop
  | .record call => ∀ e es, s.calls[call]? = some (e :: es) → ∀ k v, setting e = some (k, v) →
      UnderWay (s.calls.set call es) k ∨ v = dbTruth s.db[k]?
  | .correct _ => ∀ db d ds, s.sweep = .applying db (d :: ds) → d.resolution ≠ none →
      UnderWay s.calls d.key ∨ dbTruth db[d.key]? = dbTruth s.db[d.key]?
  | _ => True

end SweepInterleavings
