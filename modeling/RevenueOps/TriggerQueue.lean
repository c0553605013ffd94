import RevenueOps.FeeRunway

/-! The bounded queue that every trigger of the fee scheduler is offered to. Occurrences with the
kind and scope of a pending entry coalesce into it; beyond the capacity a new key is dropped. -/
namespace TriggerQueue

open FeeRunway

inductive FeeTrigger where
  | fixedInterval
  | failedForward (channelId : String)
  | policyChanged (channelId : String)
  | wakeAll
  | vegasSpike
  | forwardEvent (channelId : String)
  | newChannel (channelId : String)
  deriving DecidableEq, Repr

namespace FeeTrigger

def triggerType : FeeTrigger → String
  | .fixedInterval => "fixed_interval"
  | .failedForward _ => "failed_forward"
  | .policyChanged _ => "policy_changed"
  | .wakeAll => "wake_all"
  | .vegasSpike => "vegas_spike"
  | .forwardEvent _ => "forward_event"
  | .newChannel _ => "new_channel"

def channelId : FeeTrigger → Option String
  | .failedForward c | .policyChanged c | .forwardEvent c | .newChannel c => some c
  | .fixedInterval | .wakeAll | .vegasSpike => none

def coalesceKey (t : FeeTrigger) : String × Option String := (t.triggerType, t.channelId)

end FeeTrigger

inductive TriggerOutcome where
  | enqueued
  | coalesced
  | dropped
  deriving DecidableEq, Repr

structure PendingTrigger where
  trigger : FeeTrigger
  firstSeenAt : ℤ
  coalescedCount : ℕ
  deriving DecidableEq, Repr

namespace PendingTrigger

def key (p : PendingTrigger) : String × Option String := p.trigger.coalesceKey

def coalesce (key : String × Option String) (p : PendingTrigger) : PendingTrigger :=
  if p.key = key then { p with coalescedCount := p.coalescedCount + 1 } else p

end PendingTrigger

theorem keys_coalesce {key : String × Option String} {ps : List PendingTrigger} :
    (ps.map (PendingTrigger.coalesce key)).map PendingTrigger.key = ps.map PendingTrigger.key := by
  rw [List.map_map]
  apply List.map_congr_left
  intro p _
  by_cases hkey : p.key = key
  · rw [Function.comp_apply, PendingTrigger.coalesce, if_pos hkey]
    rfl
  · rw [Function.comp_apply, PendingTrigger.coalesce, if_neg hkey]

theorem keys_snoc {ps : List PendingTrigger} {p : PendingTrigger}
    (hps : (ps.map PendingTrigger.key).Nodup) (hp : p.key ∉ ps.map PendingTrigger.key) :
    ((ps ++ [p]).map PendingTrigger.key).Nodup := by
  rw [List.map_append, List.map_singleton]
  exact hps.append (List.nodup_singleton _) (List.disjoint_singleton.mpr hp)

/-- A queue within its capacity, with one entry for each key. -/
structure Queue where
  capacity : ℕ
  pending : List PendingTrigger
  droppedTotal : ℕ
  bounded : pending.length ≤ capacity
  distinct : (pending.map PendingTrigger.key).Nodup

namespace Queue

def new (capacity : ℕ) : Queue := ⟨capacity, [], 0, Nat.zero_le _, List.nodup_nil⟩

def offer (q : Queue) (trigger : FeeTrigger) (now : ℤ) : TriggerOutcome × Queue :=
  if hkey : trigger.coalesceKey ∈ q.pending.map PendingTrigger.key then
    (.coalesced, { q with
      pending := q.pending.map (PendingTrigger.coalesce trigger.coalesceKey)
      bounded := by rw [List.length_map]; exact q.bounded
      distinct := by rw [keys_coalesce]; exact q.distinct })
  else if hfull : q.capacity ≤ q.pending.length then
    (.dropped, { q with droppedTotal := q.droppedTotal + 1 })
  else
    (.enqueued, { q with
      pending := q.pending ++ [⟨trigger, now, 0⟩]
      bounded := by rw [List.length_append, List.length_singleton]; omega
      distinct := keys_snoc (p := ⟨trigger, now, 0⟩) q.distinct hkey })

def drainAll (q : Queue) : Queue where
  capacity := q.capacity
  pending := []
  droppedTotal := q.droppedTotal
  bounded := Nat.zero_le _
  distinct := List.nodup_nil

end Queue

/-- What record_trigger_event stores: the row with the cycle that it names, if any. -/
structure TriggerReceipt where
  cycleId : Option String
  row : FeeTriggerEventRow
  deriving DecidableEq

def buildReceipt (trigger : FeeTrigger) (receivedAt : ℤ) (coalesced : Bool)
    (cycle : Option (String × ℤ)) (detail : String) : TriggerReceipt where
  cycleId := cycle.map Prod.fst
  row :=
    { triggerType := trigger.triggerType
      channelId := trigger.channelId
      cycleTs := cycle.map Prod.snd
      receivedAt := receivedAt
      coalesced := coalesced
      detail := some detail }

end TriggerQueue
