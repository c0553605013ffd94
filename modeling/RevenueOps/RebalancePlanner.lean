import RevenueOps.GreedyMatching
import RevenueOps.RustFloat
import RevenueOps.RustNumber
import RevenueOps.StableSelection
import Mathlib.Data.Finset.Dedup
import Mathlib.Data.Finset.Insert

/-! The pure pair selection of one cycle: bands, candidates, the greedy choice, and an explanation
for every channel that is left. -/
namespace RebalancePlanner

open GreedyMatching RustFloat RustNumber StableSelection

structure PlannerChannel where
  channelId : String
  peerId : String
  capacitySats : ℤ
  spendableSats : ℤ
  bandLow : Float
  bandHigh : Float
  inboundPpm : ℤ
  valueClass : String
  urgency : Float
  drain : Float
  capexRemainingSats : ℤ

structure PlannedPair where
  source : String
  dest : String
  amountSats : ℤ
  pairBudgetSats : ℤ
  pairFeeCapPpm : ℤ
  score : Float

structure SkipRecord where
  channelId : String
  reason : String
  valueClass : String
  remainingBudgetSats : ℤ
  detail : Option String

structure DrainDemand where
  channelId : String
  peerId : String
  excessSats : ℤ
  drainScore : Float
  valueClass : String

structure PlanOutput where
  pairs : List PlannedPair
  skips : List SkipRecord
  drainDemand : List DrainDemand

def valueScore (valueClass : String) : ℤ :=
  if valueClass = "profitable" then 2
  else if valueClass = "active" ∨ valueClass = "funded" then 1
  else 0

def localRatio (spendableSats capacitySats : ℤ) : Float :=
  if capacitySats ≤ 0 then 0.0
  else pyRound (clampF64 (asF64 (max spendableSats 0) / asF64 capacitySats) 0.0 1.0) 6

def satsFromRatioDelta (ratioDelta : Float) (capacitySats : ℤ) : ℤ :=
  max (asI64 (pyRound (ratioDelta * asF64 (max capacitySats 0)) 0)) 0

structure Classified where
  ch : PlannerChannel
  ratio : Float

def classified (ch : PlannerChannel) : Classified :=
  ⟨ch, localRatio ch.spendableSats ch.capacitySats⟩

/-- The band is the channel's own; the high end is asked first. -/
inductive Band where
  | overLocal
  | overRemote
  | inside
  deriving DecidableEq, Repr

def Classified.band (c : Classified) : Band :=
  if c.ch.bandHigh < c.ratio then .overLocal
  else if c.ratio < c.ch.bandLow then .overRemote
  else .inside

def inBand (band : Band) (channels : List PlannerChannel) : List Classified :=
  (channels.map classified).filter fun c => c.band = band

structure Candidate where
  src : Classified
  dest : Classified
  amountSats : ℤ
  pairBudgetSats : ℤ
  score : Float

section Candidates

variable (src dest : Classified) (maxChunkSats pairFeeCapPpm : ℤ)

def sourceExcess : ℤ := satsFromRatioDelta (src.ratio - src.ch.bandHigh) src.ch.capacitySats

/-- The source drains towards its high end, the destination refills towards its low end. -/
def pairAmount : ℤ :=
  let destNeed := satsFromRatioDelta (dest.ch.bandLow - dest.ratio) dest.ch.capacitySats
  min (min (max (sourceExcess src) 0) (max destNeed 0)) maxChunkSats

def pairBudget (amountSats : ℤ) : Option ℤ :=
  if 0 < pairFeeCapPpm then do
    let product ← mulI64 amountSats pairFeeCapPpm
    let sum ← addI64 product 999999
    pure (max dest.ch.capexRemainingSats (sum.tdiv 1000000))
  else pure dest.ch.capexRemainingSats

def pairScore : Float :=
  let destValueTerm := asF64 (valueScore dest.ch.valueClass) * 0.20
  let destUrgencyTerm := dest.ch.urgency * 0.30
  let sourceDrainTerm := src.ch.drain * 0.20
  let inboundPpm := max 0 (min src.ch.inboundPpm 5000)
  let cheapReturnTerm := maxF64 (asF64 (5000 - inboundPpm) / 50000.0) 0.0
  destUrgencyTerm + sourceDrainTerm + destValueTerm + cheapReturnTerm

/-- A scored pair, or none; the outer none is a panic. -/
def candidate : Option (Option Candidate) :=
  if src.ch.peerId = dest.ch.peerId then pure none
  else
    let amountSats := pairAmount src dest maxChunkSats
    if amountSats ≤ 0 then pure none
    else do
      let budget ← pairBudget dest pairFeeCapPpm amountSats
      pure (some ⟨src, dest, amountSats, budget, pairScore src dest⟩)

end Candidates

def generatePairs (overLocal overRemote : List Classified) (maxChunkSats pairFeeCapPpm : ℤ) :
    Option (List Candidate) := do
  let pairs := overLocal.flatMap fun src => overRemote.map fun dest => (src, dest)
  let found ← pairs.mapM fun p => candidate p.1 p.2 maxChunkSats pairFeeCapPpm
  pure (found.filterMap id)

def Candidate.sourceId (c : Candidate) : String := c.src.ch.channelId
def Candidate.destId (c : Candidate) : String := c.dest.ch.channelId

def Candidate.planned (pairFeeCapPpm : ℤ) (c : Candidate) : PlannedPair :=
  ⟨c.sourceId, c.destId, c.amountSats, c.pairBudgetSats, pairFeeCapPpm, c.score⟩

structure Selection where
  pairedSources : Finset String
  pairedDests : Finset String
  selected : List PlannedPair

def select (maxPairs : ℕ) (pairFeeCapPpm : ℤ) : Selection → List Candidate → Selection
  | s, [] => s
  | s, cand :: candidates =>
    if maxPairs ≤ s.selected.length then s
    else if cand.sourceId ∈ s.pairedSources ∨ cand.destId ∈ s.pairedDests then
      select maxPairs pairFeeCapPpm s candidates
    else
      select maxPairs pairFeeCapPpm
        { pairedSources := insert cand.sourceId s.pairedSources
          pairedDests := insert cand.destId s.pairedDests
          selected := s.selected ++ [cand.planned pairFeeCapPpm] } candidates

def skipInside (c : Classified) : SkipRecord :=
  ⟨c.ch.channelId, "inside_band", c.ch.valueClass, c.ch.capexRemainingSats, none⟩

def skipUnpaired (others : List Classified) (noPartner : String) (atCapacity : Bool)
    (maxPairs : ℕ) (c : Classified) : SkipRecord :=
  let (reason, detail) :=
    if others.isEmpty then ("no_partner", noPartner)
    else if atCapacity then ("max_pairs_reached", s!"limit={maxPairs}")
    else ("outcompeted", "lower-scoring pairs selected")
  ⟨c.ch.channelId, reason, c.ch.valueClass, c.ch.capexRemainingSats, some detail⟩

def unpaired (paired : Finset String) (side : List Classified) : List Classified :=
  side.filter fun c => c.ch.channelId ∉ paired

def drainOf (c : Classified) : DrainDemand :=
  ⟨c.ch.channelId, c.ch.peerId, sourceExcess c, c.ch.drain, c.ch.valueClass⟩

def publish (overLocal overRemote inside : List Classified) (maxPairs : ℕ) (s : Selection) :
    PlanOutput :=
  let atCapacity := decide (maxPairs ≤ s.selected.length)
  { pairs := s.selected
    skips := inside.map skipInside ++
      (unpaired s.pairedSources overLocal).map
        (skipUnpaired overRemote "no over-remote channels available" atCapacity maxPairs) ++
      (unpaired s.pairedDests overRemote).map
        (skipUnpaired overLocal "no over-local channels available" atCapacity maxPairs)
    drainDemand := sortByKey (fun d => -totalKey d.drainScore)
      ((unpaired s.pairedSources overLocal).map drainOf) }

def plan (channels : List PlannerChannel) (maxChunkSats : ℤ) (maxPairs : ℕ)
    (pairFeeCapPpm : ℤ) : Option PlanOutput := do
  let overLocal := inBand .overLocal channels
  let overRemote := inBand .overRemote channels
  let candidates ← generatePairs overLocal overRemote maxChunkSats pairFeeCapPpm
  let sorted := sortByKey (fun c : Candidate => -totalKey c.score) candidates
  let s := select maxPairs pairFeeCapPpm ⟨∅, ∅, []⟩ sorted
  pure (publish overLocal overRemote (inBand .inside channels) maxPairs s)

end RebalancePlanner
