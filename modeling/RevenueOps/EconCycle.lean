import RevenueOps.IntentWire
import RevenueOps.RustFloat

/-! The deterministic core of a cycle in shadow: intents from the planner's pairs, then batch
arbitration. The pairs are processed in the order of their channels, whatever order they
come in; the idempotency key knows the destination and the amount, but not the source. -/
namespace EconCycle

open EconIntents IntentProposal IntentWire StableSelection Arbiter RustFloat RustNumber
open JsonValue (Json)

structure CycleContext where
  cycleId : String
  cycleTime : UnixTime
  seed : ℤ
  snapshotId : String

structure RebalancePair where
  sourceChannelId : String
  destChannelId : String
  amountSats : ℤ
  pairBudgetSats : ℤ
  score : Float
  scoreDecomposition : Option Json

/-- Debug and Display formatting of an f64. -/
class F64Text where
  debug : Float → String
  display : Float → String

def Msat.fromSats (sats : ℤ) : EconResult Msat := do
  let _ ← checkInt sats 0 u63Max "Msat.from_sats"
  Msat.new (sats * 1000)

def UnixTime.plusSeconds (t : UnixTime) (seconds : ℤ) : EconResult UnixTime := do
  let _ ← checkInt seconds 0 u63Max "UnixTime.plus_seconds"
  UnixTime.new (t.value + seconds)

def asF64 : Json → Option Float
  | .int n => some (RustNumber.asF64 n)
  | .float x => some x
  | _ => none

def wholeF64 (x : Float) : ℤ :=
  match x.toModel.unpack with
  | .finite .positive mantissa exponent _ =>
    (mantissa * 2 ^ exponent.toNat / 2 ^ (-exponent).toNat : ℕ)
  | .finite .negative mantissa exponent _ =>
    -(mantissa * 2 ^ exponent.toNat / 2 ^ (-exponent).toNat : ℕ)
  | _ => 0

def containsKey (decomp : Json) (key : String) : Bool := (decomp.get key).isSome

section Intents

variable [F64Text]

def benefitMsatFromSats (valueSats : Option Float) : EconResult ℤ :=
  match valueSats with
  | none => .ok 0
  | some value =>
    if !value.isFinite then .ok 0
    else
      let scaled := value * 1000.0
      if !scaled.isFinite then
        .error ⟨s!"benefit_msat_from_sats: {F64Text.display value} * 1000 overflowed f64 range"⟩
      else
        let rounded := pyRound scaled 0
        if InI64 (wholeF64 rounded) then .ok (wholeF64 rounded)
        else .error
          ⟨s!"benefit_msat_from_sats out of SignedMsat range: {F64Text.display rounded}"⟩

def confidenceMicro (fraction : Option Float) : EconResult Micro :=
  match fraction with
  | none => Micro.new 0
  | some value =>
    if !value.isFinite then Micro.new 0
    else Micro.new (asI64 (pyRound (clampF64 value 0.0 1.0 * 1000000.0) 0))

def evFields (pair : RebalancePair) (evEnabled : Bool) : EconResult (ℤ × Micro) :=
  match pair.scoreDecomposition with
  | some decomp =>
    if evEnabled ∧ containsKey decomp "final_score_sats" then do
      let benefit ← benefitMsatFromSats ((decomp.get "final_score_sats").bind asF64)
      let confidence ← confidenceMicro ((decomp.get "p_success").bind asF64)
      pure (benefit, confidence)
    else do
      let confidence ← Micro.new 0
      pure (0, confidence)
  | none => do
    let confidence ← Micro.new 0
    pure (0, confidence)

variable [Sha256] [DebugText]

def rebalanceIntent (pair : RebalancePair) (ctx : CycleContext) (evEnabled : Bool) :
    EconResult FullEnvelope := do
  let (benefit, confidence) ← evFields pair evEnabled
  let amountMsat ← Msat.fromSats pair.amountSats
  let maxCostMsat ← Msat.fromSats pair.pairBudgetSats
  let roundedScore := pyRound pair.score 6
  if !roundedScore.isFinite then
    .error ⟨s!"rebalance_intent: non-finite score: {F64Text.debug pair.score}"⟩
  else do
    let expiresAt ← UnixTime.plusSeconds ctx.cycleTime 600
    makeIntent {
      intentType := .rebalance
      snapshotId := ctx.snapshotId
      createdAt := ctx.cycleTime
      expiresAt := expiresAt
      target := pair.destChannelId
      amountMsat := some amountMsat
      expectedBenefitMsat := benefit
      maxCostMsat := maxCostMsat
      capitalCommittedMsat := amountMsat
      confidenceMicro := confidence
      reasonCodes := []
      explanation := ⟨"cycle_rebalance", [("source", .str pair.sourceChannelId),
        ("dest", .str pair.destChannelId), ("amount_sats", .int pair.amountSats),
        ("score", .float roundedScore)]⟩
      preconditions := []
      priority := 50
      budgetBucket := "rebalance"
      originPolicy := "econ_cycle_shadow"
      reversible := false }

abbrev PairKey := String ×ₗ String

def pairKey (pair : RebalancePair) : PairKey := toLex (pair.destChannelId, pair.sourceChannelId)

def rebalanceIntentPairs (pairs : List RebalancePair) (ctx : CycleContext) (evEnabled : Bool) :
    EconResult (List (FullEnvelope × ℕ)) :=
  (sortByKey (fun p => pairKey p.1) pairs.zipIdx).mapM fun p => do
    let env ← rebalanceIntent p.1 ctx evEnabled
    pure (env, p.2)

def rebalanceIntentsFromPairs (pairs : List RebalancePair) (ctx : CycleContext) :
    EconResult (List FullEnvelope) := do
  let made ← rebalanceIntentPairs pairs ctx false
  pure (made.map Prod.fst)

structure CycleResult where
  context : CycleContext
  channelCount : ℤ
  intents : List FullEnvelope
  arbitration : ArbitrationResult

def planCycle (pairs : List RebalancePair) (ctx : CycleContext) (channelCount : ℤ) :
    EconResult CycleResult := do
  let intents ← rebalanceIntentsFromPairs pairs ctx
  pure ⟨ctx, channelCount, intents, arbitrate intents ctx.cycleTime.value false⟩

end Intents

def rejectionWire (r : Rejection) : Json :=
  .obj [("detail", .str r.detail), ("intent", IntentWire.toWire r.env),
    ("reason_code", .str r.reasonCode)]

def CycleResult.toWire (result : CycleResult) : Json :=
  .obj [("channel_count", .int result.channelCount),
    ("cycle_id", .str result.context.cycleId),
    ("cycle_time", .int result.context.cycleTime.value),
    ("intents_proposed", .int result.intents.length),
    ("ordered", .arr (result.arbitration.ordered.map IntentWire.toWire)),
    ("rejected", .arr (result.arbitration.rejected.map rejectionWire)),
    ("schema_name", .str "econ_cycle_result"),
    ("schema_version", .int 0),
    ("seed", .int result.context.seed),
    ("snapshot_id", .str result.context.snapshotId),
    ("superseded", .obj (result.arbitration.superseded.toList.map fun e => (e.1, .str e.2)))]

section Order

theorem mapM_places {α β : Type} (f : α → EconResult β) (l : List (α × ℕ)) :
    (do
      let made ← l.mapM fun p => do
        let b ← f p.1
        pure (b, p.2)
      pure (made.map Prod.fst)) = (l.map Prod.fst).mapM f := by
  induction l with
  | nil => rfl
  | cons p l ih =>
    rw [List.map_cons, List.mapM_cons, List.mapM_cons, ← ih]
    cases f p.1 with
    | error e => rfl
    | ok b =>
      generalize (l.mapM fun p => do
        let b ← f p.1
        pure (b, p.2)) = made
      cases made <;> rfl

theorem sortByKey_pairs {pairs pairs' : List RebalancePair} (hp : pairs'.Perm pairs)
    (hdistinct : (pairs.map pairKey).Nodup) :
    sortByKey pairKey pairs' = sortByKey pairKey pairs := by
  have hperm : (sortByKey pairKey pairs').Perm (sortByKey pairKey pairs) :=
    (perm_sortByKey pairs').trans (hp.trans (perm_sortByKey pairs).symm)
  refine eq_of_perm_of_separated hperm (pairwise_sortByKey pairs') (pairwise_sortByKey pairs) ?_
  intro a ha b hb hkey
  have hmem : ∀ c ∈ sortByKey pairKey pairs', c ∈ pairs := fun c hc =>
    hp.mem_iff.mp ((perm_sortByKey pairs').mem_iff.mp hc)
  exact List.inj_on_of_nodup_map hdistinct (hmem a ha) (hmem b hb) hkey

variable [F64Text] [Sha256] [DebugText]

theorem rebalanceIntentsFromPairs_eq (pairs : List RebalancePair) (ctx : CycleContext) :
    rebalanceIntentsFromPairs pairs ctx =
      (sortByKey pairKey pairs).mapM fun pair => rebalanceIntent pair ctx false := by
  have hsorted : (sortByKey (fun p => pairKey p.1) pairs.zipIdx).map Prod.fst =
      sortByKey pairKey pairs := by
    have hmap := List.map_insertionSort (fun a b : RebalancePair × ℕ => pairKey a.1 ≤ pairKey b.1)
      (fun a b => pairKey a ≤ pairKey b) Prod.fst pairs.zipIdx fun _ _ _ _ => Iff.rfl
    rw [List.zipIdx_map_fst] at hmap
    exact hmap
  rw [← hsorted, ← mapM_places]
  rfl

/-- Pairs of distinct channels give one result in every order, and the same error where one of
them has no intent. -/
theorem planCycle_perm (pairs pairs' : List RebalancePair) (ctx : CycleContext)
    (channelCount : ℤ) (hp : pairs'.Perm pairs)
    (hdistinct : (pairs.map fun p => (p.destChannelId, p.sourceChannelId)).Nodup) :
    (planCycle pairs' ctx channelCount).map CycleResult.toWire =
      (planCycle pairs ctx channelCount).map CycleResult.toWire := by
  have hkeys : (pairs.map pairKey).Nodup := hdistinct
  rw [planCycle, planCycle, rebalanceIntentsFromPairs_eq, rebalanceIntentsFromPairs_eq,
    sortByKey_pairs hp hkeys]

end Order

@[reducible] def plainF64Text : F64Text := ⟨fun _ => "0.0", fun _ => "0"⟩

theorem epoch_nonneg : (0 : ℤ) ≤ 0 := le_refl 0

def sampleContext : CycleContext :=
  ⟨"econ-cycle-0-1", ⟨0, epoch_nonneg, zero_le_u63Max⟩, 42, "snap-1"⟩

/-- Two sources of one destination and one amount share the idempotency key. -/
def samplePair (source : String) (budget : ℤ) : RebalancePair :=
  ⟨source, "111x222x0", 400000, budget, 0.0, none⟩

theorem collapsing_pairs_perm :
    (@planCycle plainF64Text knownDigests plainDebug
        [samplePair "900x1x0" 20, samplePair "100x1x0" 10] sampleContext 2).map
          CycleResult.toWire =
      (@planCycle plainF64Text knownDigests plainDebug
        [samplePair "100x1x0" 10, samplePair "900x1x0" 20] sampleContext 2).map
          CycleResult.toWire :=
  @planCycle_perm plainF64Text knownDigests plainDebug _ _ sampleContext 2
    (List.Perm.swap _ _ _) (by decide)

end EconCycle
