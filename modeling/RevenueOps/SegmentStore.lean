import RevenueOps.RustFloat
import RevenueOps.RustText
import RevenueOps.StableSelection

/-! The in-memory store of failed route segments. A record appends to the ring and drops entries
from its front; an export validates the ring, sorts it newest first and keeps that order. -/
namespace SegmentStore

open RustText RustFloat StableSelection

def schemaVersion : ℤ := 1

def buckets : List ℤ := [50000, 100000, 250000, 500000, 1000000, 2000000, 5000000, 10000000]

def validFailureClasses : List String := ["liquidity", "fee", "timeout", "unknown"]

/-- The largest bucket that the amount reaches, and the first one for a smaller amount. -/
def bucketAmountSats (amountSats : ℤ) : ℤ :=
  if amountSats ≤ 0 then 0 else ((buckets.takeWhile (· ≤ amountSats)).getLast?).getD 50000

structure SegmentObservation where
  observationId : String
  shortChannelId : String
  direction : UInt8
  amountBucketSats : ℤ
  outcome : String
  failureClass : String
  confidence : Float
  observedAt : ℤ
  sourceChannelId : String
  destChannelId : String
  routePolicy : String
  routerKind : String
  correlationId : String

structure SegmentObservationStore where
  ttlSeconds : ℤ
  maxObservations : ℕ
  observations : List SegmentObservation
  nextObservationId : ℕ
  positive : 0 < maxObservations
  capped : observations.length ≤ maxObservations

structure Snapshot where
  generatedAt : ℤ
  ttlSeconds : ℤ
  schemaVersion : ℤ
  segmentObservations : List SegmentObservation

namespace SegmentObservationStore

def new (ttlSeconds maxObservations : ℤ) : SegmentObservationStore where
  ttlSeconds := max ttlSeconds 60
  maxObservations := (max maxObservations 1).toNat
  observations := []
  nextObservationId := 1
  positive := by omega
  capped := by simp

/-- The last entries of a list; popping the front of a longer one leaves these. -/
def lastEntries {α : Type} (n : ℕ) (l : List α) : List α := l.drop (l.length - n)

theorem length_lastEntries_le {α : Type} (n : ℕ) (l : List α) : (lastEntries n l).length ≤ n := by
  rw [lastEntries, List.length_drop]
  omega

def observation (shortChannelId : String) (direction : UInt8) (bucket : ℤ) (failureClass : String)
    (confidence : Float) (now : ℤ) (seq : ℕ) : SegmentObservation where
  observationId := "obs-" ++ toString now ++ "-" ++ toString seq
  shortChannelId := shortChannelId
  direction := direction
  amountBucketSats := bucket
  outcome := "failure"
  failureClass := failureClass
  confidence := confidence
  observedAt := now
  sourceChannelId := ""
  destChannelId := ""
  routePolicy := ""
  routerKind := ""
  correlationId := ""

def push (s : SegmentObservationStore) (entry : SegmentObservation) : SegmentObservationStore :=
  { s with
    observations := lastEntries s.maxObservations (s.observations ++ [entry])
    nextObservationId := s.nextObservationId + 1
    capped := length_lastEntries_le _ _ }

/-- A rejected amount takes no sequence number. -/
def record (s : SegmentObservationStore) (shortChannelId : String) (direction : UInt8)
    (amountSats : ℤ) (failureClass : String) (confidence : Float) (now : ℤ) :
    Option SegmentObservation × SegmentObservationStore :=
  let bucket := bucketAmountSats amountSats
  if bucket ≤ 0 then (none, s)
  else
    let entry := observation shortChannelId direction bucket failureClass confidence now
      s.nextObservationId
    (some entry, s.push entry)

def normalizedClass (failureClass : String) : String :=
  let trimmed := trim failureClass
  if trimmed = "" then "unknown" else if trimmed ∈ validFailureClasses then trimmed else "unknown"

def validObservation (ttlSeconds : ℤ) (entry : SegmentObservation) (now : ℤ) :
    Option SegmentObservation :=
  if trim entry.shortChannelId = "" ∨ (entry.direction ≠ 0 ∧ entry.direction ≠ 1) then none
  else if entry.amountBucketSats ≤ 0 then none
  else if entry.observedAt ≤ 0 ∨ ttlSeconds < now - entry.observedAt then none
  else if trim entry.observationId = "" then none
  else some
    { observationId := trim entry.observationId
      shortChannelId := trim entry.shortChannelId
      direction := entry.direction
      amountBucketSats := entry.amountBucketSats
      outcome := "failure"
      failureClass := normalizedClass entry.failureClass
      confidence := clampF64 entry.confidence 0.0 1.0
      observedAt := entry.observedAt
      sourceChannelId := trim entry.sourceChannelId
      destChannelId := trim entry.destChannelId
      routePolicy := trim entry.routePolicy
      routerKind := trim entry.routerKind
      correlationId := trim entry.correlationId }

/-- Newest first; entries of one time keep their order. -/
def sortedValid (s : SegmentObservationStore) (now : ℤ) : List SegmentObservation :=
  sortByKey (fun o => -o.observedAt)
    (s.observations.filterMap fun e => validObservation s.ttlSeconds e now)

def exportSnapshot (s : SegmentObservationStore) (now : ℤ) : Snapshot × SegmentObservationStore :=
  (⟨now, s.ttlSeconds, SegmentStore.schemaVersion, s.sortedValid now⟩,
    { s with
      observations := lastEntries s.maxObservations (s.sortedValid now)
      capped := length_lastEntries_le _ _ })

end SegmentObservationStore

open SegmentObservationStore

section Runs

inductive Call where
  | record (shortChannelId : String) (direction : UInt8) (amountSats : ℤ) (failureClass : String)
      (confidence : Float) (now : ℤ)
  | exportSnapshot (now : ℤ)

def Call.time : Call → ℤ
  | .record _ _ _ _ _ now => now
  | .exportSnapshot now => now

/-- A store with every observation it accepted so far, oldest first. -/
structure History where
  store : SegmentObservationStore
  accepted : List SegmentObservation

def History.fresh (ttlSeconds maxObservations : ℤ) : History :=
  ⟨.new ttlSeconds maxObservations, []⟩

def History.perform (h : History) : Call → History
  | .record shortChannelId direction amountSats failureClass confidence now =>
    let r := h.store.record shortChannelId direction amountSats failureClass confidence now
    ⟨r.2, h.accepted ++ r.1.toList⟩
  | .exportSnapshot now => { h with store := (h.store.exportSnapshot now).2 }

/-- The histories of calls at non-decreasing times, each call allowed in the state it meets. -/
inductive Run (ttlSeconds maxObservations : ℤ) (allowed : SegmentObservationStore → Call → Prop) :
    History → ℤ → Prop
  | fresh (now : ℤ) : Run _ _ allowed (.fresh ttlSeconds maxObservations) now
  | call {h : History} {now : ℤ} {c : Call} : Run _ _ allowed h now → now ≤ c.time →
      allowed h.store c → Run _ _ allowed (h.perform c) c.time

/-- The call has an entry dropped because the store is full. -/
def Evicts (s : SegmentObservationStore) : Call → Prop
  | .record _ _ amountSats _ _ _ =>
    0 < bucketAmountSats amountSats ∧ s.observations.length = s.maxObservations
  | .exportSnapshot _ => False

/-- What the store holds at the moment of the call, the new entry included. -/
def held (s : SegmentObservationStore) : Call → List SegmentObservation
  | .record scid direction amountSats failureClass confidence now =>
    s.observations ++ (s.record scid direction amountSats failureClass confidence now).1.toList
  | .exportSnapshot _ => s.observations

/-- The entry dropped has the smallest time among those held. -/
def DropsOldest (h : History) (c : Call) : Prop :=
  ∃ dropped, held h.store c = dropped :: (h.perform c).store.observations ∧
    ∀ e ∈ held h.store c, dropped.observedAt ≤ e.observedAt

def TimeOrdered (s : SegmentObservationStore) : Prop :=
  s.observations.Pairwise fun a b => a.observedAt ≤ b.observedAt

def WellFormed (o : SegmentObservation) : Prop :=
  trim o.shortChannelId ≠ "" ∧ (o.direction = 0 ∨ o.direction = 1) ∧ 0 < o.observedAt

/-- Of the newest observations, as many as the store may hold, those still within their time to
live are in the ring. -/
def RetainsNewest (h : History) (now : ℤ) : Prop :=
  ∀ o ∈ lastEntries h.store.maxObservations h.accepted, WellFormed o →
    now - o.observedAt ≤ h.store.ttlSeconds →
      ∃ e ∈ h.store.observations, e.observationId = o.observationId ∧ e.observedAt = o.observedAt

end Runs

end SegmentStore
