import RevenueOps.KeyedTable
import RevenueOps.StateMachine

/-! The health rows of the business loops: one row a loop, two generation counters, and the
boots that began the latest pass and recorded the latest terminal. A verdict is for one boot. -/
namespace LoopHealth

open KeyedTable StateMachine

inductive LoopId where
  | flowAnalysis
  | fee
  | rebalance
  | startupSnapshot
  | financialSnapshot
  | boltz
  | planner
  | lnPlus
  deriving DecidableEq, Repr

def LoopId.asStr : LoopId → String
  | .flowAnalysis => "flow-analysis"
  | .fee => "fee-adjustment"
  | .rebalance => "rebalance-check"
  | .startupSnapshot => "startup-snapshot"
  | .financialSnapshot => "financial-snapshot"
  | .boltz => "boltz-auto-cycle"
  | .planner => "capacity-planner"
  | .lnPlus => "lnplus-watcher"

inductive WiringStatus where
  | notWired
  | ready
  deriving DecidableEq, Repr

def WiringStatus.asStr : WiringStatus → String
  | .notWired => "not_wired"
  | .ready => "ready"

inductive TerminalStatus where
  | none
  | passed
  | error
  deriving DecidableEq, Repr

inductive RuntimeStatus where
  | active
  | suspended
  deriving DecidableEq, Repr

def RuntimeStatus.asStr : RuntimeStatus → String
  | .active => "active"
  | .suspended => "suspended"

structure LoopHealthRow where
  loopId : LoopId
  wiringStatus : WiringStatus
  generation : ℕ
  terminalGeneration : ℕ
  terminalStatus : TerminalStatus
  runtimeStatus : RuntimeStatus
  lastSuspendedAt : Option ℤ
  lastSuspensionReason : Option String
  lastStartedAt : Option ℤ
  lastPassedAt : Option ℤ
  lastErrorAt : Option ℤ
  lastError : Option String
  coalescedTotal : ℕ
  droppedTotal : ℕ
  updatedAt : ℤ
  bootId : Option String
  terminalBootId : Option String

/-- The row that an INSERT of name, wiring and time makes. -/
def LoopHealthRow.new (loopId : LoopId) (wiringStatus : WiringStatus) (updatedAt : ℤ) :
    LoopHealthRow :=
  { loopId, wiringStatus, updatedAt
    generation := 0
    terminalGeneration := 0
    terminalStatus := .none
    runtimeStatus := .active
    lastSuspendedAt := none
    lastSuspensionReason := none
    lastStartedAt := none
    lastPassedAt := none
    lastErrorAt := none
    lastError := none
    coalescedTotal := 0
    droppedTotal := 0
    bootId := none
    terminalBootId := none }

abbrev HealthTable := Table LoopHealthRow LoopId LoopHealthRow.loopId

def maxErrorBytes : ℕ := 512

def takeBytes : ℕ → List Char → List Char
  | _, [] => []
  | room, c :: cs => if c.utf8Size ≤ room then c :: takeBytes (room - c.utf8Size) cs else []

def boundedError (error : String) : String :=
  if error.utf8ByteSize ≤ maxErrorBytes then error
  else String.ofList (takeBytes maxErrorBytes error.toList)

def registerLoop (t : HealthTable) (id : LoopId) (wiring : WiringStatus) (now : ℤ) : HealthTable :=
  if (t.find? id).isSome then
    t.updateWhere (fun r => r.loopId = id) (fun r => { r with
      wiringStatus := wiring
      runtimeStatus := if wiring = .ready then .active else r.runtimeStatus
      updatedAt := now }) fun _ => rfl
  else t.insertOrReplace (.new id wiring now)

/-- The count is an INTEGER column: one more than the largest does not come back as one, and
the transaction is dropped. -/
def beginLoopPass (t : HealthTable) (id : LoopId) (bootId : String) (now : ℤ) :
    Except String (ℕ × HealthTable) :=
  match t.find? id with
  | none => .error s!"loop {id.asStr} is unregistered"
  | some row =>
    if row.wiringStatus = .ready ∧ row.runtimeStatus = .active then
      if row.generation + 1 < 2 ^ 63 then
        .ok (row.generation + 1, t.updateWhere (fun r => r.loopId = id) (fun r => { r with
          generation := r.generation + 1
          lastStartedAt := some now
          updatedAt := now
          bootId := some bootId }) fun _ => rfl)
      else .error "Invalid column type Real at index: 0, name: generation"
    else .error
      s!"loop {id.asStr} is wiring={row.wiringStatus.asStr}, runtime={row.runtimeStatus.asStr}; refusing pass"

/-- The row takes a terminal for its latest generation, and only one. -/
def awaits (id : LoopId) (generation : ℕ) (r : LoopHealthRow) : Bool :=
  r.loopId = id ∧ r.generation = generation ∧ r.terminalGeneration < generation

def terminalUpdate (t : HealthTable) (id : LoopId) (generation : ℕ) (bootId : String) (time : ℤ)
    (error : Option String) : Except String HealthTable :=
  if 2 ^ 63 ≤ generation then .error "out of range integral type conversion attempted"
  else if t.rows.any (awaits id generation) then
    .ok (match error with
      | none => t.updateWhere (awaits id generation) (fun r => { r with
          lastPassedAt := some time
          terminalGeneration := generation
          terminalStatus := .passed
          updatedAt := time
          terminalBootId := some bootId }) fun _ => rfl
      | some error => t.updateWhere (awaits id generation) (fun r => { r with
          lastErrorAt := some time
          lastError := some error
          terminalGeneration := generation
          terminalStatus := .error
          updatedAt := time
          terminalBootId := some bootId }) fun _ => rfl)
  else .error s!"stale or already-terminal generation {generation} for loop {id.asStr}"

def finishLoopPass (t : HealthTable) (id : LoopId) (generation : ℕ) (bootId : String) (time : ℤ) :
    Except String HealthTable := terminalUpdate t id generation bootId time none

def failLoopPass (t : HealthTable) (id : LoopId) (generation : ℕ) (bootId : String) (time : ℤ)
    (error : String) : Except String HealthTable :=
  terminalUpdate t id generation bootId time (some (boundedError error))

def incrementLoopBackpressure (t : HealthTable) (id : LoopId) (coalesced dropped : ℕ) (now : ℤ) :
    Except String HealthTable :=
  if 2 ^ 63 ≤ coalesced ∨ 2 ^ 63 ≤ dropped then
    .error "out of range integral type conversion attempted"
  else if (t.find? id).isSome then
    .ok (t.updateWhere (fun r => r.loopId = id) (fun r => { r with
      coalescedTotal := r.coalescedTotal + coalesced
      droppedTotal := r.droppedTotal + dropped
      updatedAt := now }) fun _ => rfl)
  else .error s!"loop {id.asStr} is unregistered"

def suspendLoop (t : HealthTable) (id : LoopId) (time : ℤ) (reason : String) :
    Except String HealthTable :=
  if (t.find? id).isSome then
    .ok (t.updateWhere (fun r => r.loopId = id) (fun r => { r with
      runtimeStatus := .suspended
      lastSuspendedAt := some time
      lastSuspensionReason := some (boundedError reason)
      updatedAt := time }) fun _ => rfl)
  else .error s!"loop {id.asStr} is unregistered"

def incomplete (r : LoopHealthRow) : Bool := r.terminalGeneration < r.generation

/-- Every open generation gets a terminal; whose pass it was stays as it is. -/
def reconcileIncompleteOnRestart (t : HealthTable) (now : ℤ) : ℕ × HealthTable :=
  (t.rows.countP incomplete, t.updateWhere incomplete (fun r => { r with
    lastErrorAt := some now
    lastError := some "previous_generation_incomplete_on_restart"
    terminalGeneration := r.generation
    terminalStatus := .error
    updatedAt := now }) fun _ => rfl)

inductive BootStatus where
  | notWired
  | suspended
  | incomplete
  | passed
  | error
  | neverRunThisBoot
  deriving DecidableEq, Repr

def currentBootStatus (row : LoopHealthRow) (bootId : String) : BootStatus :=
  if row.wiringStatus ≠ .ready then .notWired
  else if row.runtimeStatus = .suspended then .suspended
  else if row.terminalGeneration < row.generation then
    if row.bootId = some bootId then .incomplete else .neverRunThisBoot
  else if row.terminalBootId ≠ some bootId then .neverRunThisBoot
  else
    match row.terminalStatus with
    | .passed => .passed
    | .error => .error
    | .none => .neverRunThisBoot

section Verdict

variable {r : LoopHealthRow} {b : String}

theorem incomplete_verdict (h : currentBootStatus r b = .incomplete) : r.bootId = some b := by
  unfold currentBootStatus at h
  split_ifs at h with _ _ _ hboot
  · exact hboot
  · split at h <;> simp at h

/-- A verdict about a terminal is about the latest generation and the boot on the row. -/
theorem terminal_verdict {status : BootStatus} (h : currentBootStatus r b = status)
    (hstatus : status = .passed ∨ status = .error) :
    r.generation ≤ r.terminalGeneration ∧ r.terminalBootId = some b ∧
      (status = .passed → r.terminalStatus = .passed) ∧
      (status = .error → r.terminalStatus = .error) := by
  unfold currentBootStatus at h
  split_ifs at h with hwired hactive hopen hbegan hother
  · subst h; simp at hstatus
  · subst h; simp at hstatus
  · subst h; simp at hstatus
  · subst h; simp at hstatus
  · subst h; simp at hstatus
  · refine ⟨by omega, not_not.mp hother, ?_, ?_⟩ <;>
      · rintro rfl
        split at h <;> simp_all

end Verdict

/-- How a generation got its terminal, and at which boot's hand. -/
inductive Ending where
  | finished (boot : String)
  | failed (boot : String)
  | reconciled (boot : String)
  deriving DecidableEq, Repr

structure Terminal where
  loopId : LoopId
  generation : ℕ
  ending : Ending
  deriving DecidableEq, Repr

structure Pass where
  boot : String
  loopId : LoopId
  generation : ℕ
  deriving DecidableEq, Repr

inductive Call where
  | registerLoop (id : LoopId) (wiring : WiringStatus) (now : ℤ)
  | beginLoopPass (id : LoopId) (boot : String) (now : ℤ)
  | finishLoopPass (id : LoopId) (generation : ℕ) (boot : String) (time : ℤ)
  | failLoopPass (id : LoopId) (generation : ℕ) (boot : String) (time : ℤ) (error : String)
  | suspendLoop (id : LoopId) (time : ℤ) (reason : String)
  | incrementLoopBackpressure (id : LoopId) (coalesced dropped : ℕ) (now : ℤ)
  | reconcileIncompleteOnRestart (boot : String) (now : ℤ)

/-- The table, and what the boots did: the passes that were begun, and how generations ended. -/
structure Session where
  table : HealthTable
  begun : List Pass
  terminals : List Terminal

def startSession : Session := ⟨Table.empty, [], []⟩

/-- A call that returns an error leaves everything as it was. -/
def step (s : Session) : Call → Session
  | .registerLoop id wiring now => { s with table := registerLoop s.table id wiring now }
  | .beginLoopPass id boot now =>
    match beginLoopPass s.table id boot now with
    | .ok (generation, table) => { s with table, begun := ⟨boot, id, generation⟩ :: s.begun }
    | .error _ => s
  | .finishLoopPass id generation boot time =>
    match finishLoopPass s.table id generation boot time with
    | .ok table => { s with table, terminals := ⟨id, generation, .finished boot⟩ :: s.terminals }
    | .error _ => s
  | .failLoopPass id generation boot time error =>
    match failLoopPass s.table id generation boot time error with
    | .ok table => { s with table, terminals := ⟨id, generation, .failed boot⟩ :: s.terminals }
    | .error _ => s
  | .suspendLoop id time reason =>
    match suspendLoop s.table id time reason with
    | .ok table => { s with table }
    | .error _ => s
  | .incrementLoopBackpressure id coalesced dropped now =>
    match incrementLoopBackpressure s.table id coalesced dropped now with
    | .ok table => { s with table }
    | .error _ => s
  | .reconcileIncompleteOnRestart boot now =>
    { s with
      table := (reconcileIncompleteOnRestart s.table now).2
      terminals := (s.table.rows.filter incomplete).map
        (fun r => ⟨r.loopId, r.generation, .reconciled boot⟩) ++ s.terminals }

/-- A boot ends only passes that it began, and reconciles only before its first. -/
def Permitted (s : Session) : Call → Prop
  | .finishLoopPass id generation boot _ => ⟨boot, id, generation⟩ ∈ s.begun
  | .failLoopPass id generation boot _ _ => ⟨boot, id, generation⟩ ∈ s.begun
  | .reconcileIncompleteOnRestart boot _ => ∀ p ∈ s.begun, p.boot ≠ boot
  | _ => True

instance (s : Session) : ∀ c, Decidable (Permitted s c)
  | .finishLoopPass id generation boot _ =>
    inferInstanceAs (Decidable (⟨boot, id, generation⟩ ∈ s.begun))
  | .failLoopPass id generation boot _ _ =>
    inferInstanceAs (Decidable (⟨boot, id, generation⟩ ∈ s.begun))
  | .reconcileIncompleteOnRestart boot _ =>
    inferInstanceAs (Decidable (∀ p ∈ s.begun, p.boot ≠ boot))
  | .registerLoop .. | .beginLoopPass .. | .suspendLoop .. | .incrementLoopBackpressure .. =>
    isTrue trivial

def loops : Machine Session Call := ⟨Permitted, step⟩

instance (s : Session) (c : Call) : Decidable (loops.Enabled s c) :=
  inferInstanceAs (Decidable (Permitted s c))

/-- A reconcile closes no pass of a loop on which a boot has recorded a terminal. -/
def Untouched (s : Session) : Call → Prop
  | .reconcileIncompleteOnRestart _ _ =>
    ∀ r ∈ s.table.rows, incomplete r = true → r.terminalBootId = none
  | _ => True

instance (s : Session) : ∀ c, Decidable (Untouched s c)
  | .reconcileIncompleteOnRestart _ _ => inferInstanceAs
    (Decidable (∀ r ∈ s.table.rows, incomplete r = true → r.terminalBootId = none))
  | .finishLoopPass .. | .failLoopPass .. | .registerLoop .. | .beginLoopPass ..
  | .suspendLoop .. | .incrementLoopBackpressure .. => isTrue trivial

end LoopHealth
