import RevenueOps.Arithmetic
import RevenueOps.KeyedDict

/-! The capital budget of one cycle: what each channel, the exploration of new channels and the
treasury may spend, cut to the global envelope. Generic in the numbers that stand for f64; amounts
are whole msats. -/
namespace Capex

open Arithmetic KeyedTable
open RustFloat (clampF64)

variable {F : Type} [Add F] [Sub F] [Mul F] [Div F] [LT F] [LE F] [DecidableLT F] [DecidableLE F]
  [OfScientific F] [F64 F]

def msatPerSat : ℤ := 1000

section Evidence

structure CapexConfig (F : Type) where
  capexReinvestmentRate : F
  capexBootstrapBps : ℤ
  capexBootstrapMaxSats : ℤ
  capexGraceDays : ℤ
  capexExplorationRate : F
  capexTacticalRate : F
  capexGlobalEnvelopeSats : ℤ
  dailyBudgetSats : ℤ
  weeklyBudgetSats : ℤ
  minWalletReserve : ℤ
  estimatedOpenCostSats : ℤ

def CapexConfig.default : CapexConfig F where
  capexReinvestmentRate := 0.50
  capexBootstrapBps := 10
  capexBootstrapMaxSats := 200
  capexGraceDays := 14
  capexExplorationRate := 0.10
  capexTacticalRate := 0.15
  capexGlobalEnvelopeSats := 0
  dailyBudgetSats := 5000
  weeklyBudgetSats := 35000
  minWalletReserve := 1000000
  estimatedOpenCostSats := 5000

structure Window30d where
  contribution30dMsat : ℤ
  feesEarned30dMsat : ℤ

structure ChannelProfile (F : Type) where
  classification : String
  capacitySats : ℤ
  daysOpen : ℤ
  marginalRoi : F
  marginalRoiReliable : Bool
  channelRole : Option String
  totalContributionMsat : ℤ
  totalForwardCount : ℤ
  feesEarnedMsat : ℤ
  sourcedFeeContributionMsat : ℤ
  window30d : Option Window30d

structure ChannelEfficiency (F : Type) where
  isDeadCapital : Bool
  rpsd : F

structure FleetEfficiency (F : Type) where
  channelEfficiencies : Dict String (ChannelEfficiency F)
  medianRpsd : F

structure SpendSummary where
  spentByCategory : Dict String ℤ
  reservedByCategory : Dict String ℤ

def SpendSummary.default : SpendSummary := ⟨Table.empty, Table.empty⟩

/-- A spend map or a ledger summary is `none` where its read failed. -/
structure CapexEvidence (F : Type) where
  channels : Dict String (ChannelProfile F)
  bleederStatus : Dict String String
  capexByChannelSats : Option (Dict String ℤ)
  spendSummary : Option SpendSummary
  onchainSats : ℤ
  successRates : Dict String F
  fleetEfficiency : Option (FleetEfficiency F)

end Evidence

section Allocations

inductive Tier where
  | proven | active | bootstrap | blocked
  deriving DecidableEq

inductive PriorityClass where
  | defensive | preservation | operational | growth
  deriving DecidableEq

structure ChannelCapexBudget (F : Type) where
  channelId : String
  budgetMsat : ℤ
  tier : Tier
  tierPpm : ℤ
  priorityClass : PriorityClass
  successRate30d : Option F
  roiMultiplier : F

namespace ChannelCapexBudget

def blocked (channelId : String) : ChannelCapexBudget F :=
  ⟨channelId, 0, .blocked, 0, .growth, none, 1.0⟩

def blockedWithPriority (channelId : String) (priorityClass : PriorityClass) :
    ChannelCapexBudget F :=
  { (blocked channelId : ChannelCapexBudget F) with priorityClass }

end ChannelCapexBudget

structure CapexAllocations (F : Type) where
  priorityClass : PriorityClass
  globalEnvelopeMsat : ℤ
  channelBudgets : Dict String (ChannelCapexBudget F)
  fleetExplorationBudgetMsat : ℤ
  tacticalBudgetMsat : ℤ
  allocatedByPriorityMsat : Dict PriorityClass ℤ
  totalFleetContributionMsat : ℤ
  dbDegraded : Bool

def CapexAllocations.channelBudget (a : CapexAllocations F) (channelId : String) :
    ChannelCapexBudget F :=
  (a.channelBudgets.get? channelId).getD (.blocked channelId)

end Allocations

section Helpers

def hasGatewayValue (prof : ChannelProfile F) : Bool :=
  if prof.channelRole = some "inbound_gateway" then true
  else decide (100000 < prof.sourcedFeeContributionMsat)

def efficiencyMultiplier (channelId : String) (fleetEfficiency : Option (FleetEfficiency F))
    (prof : Option (ChannelProfile F)) : F :=
  match fleetEfficiency with
  | none => 1.0
  | some fleet =>
    match fleet.channelEfficiencies.get? channelId with
    | none => 1.0
    | some channelEff =>
      if channelEff.isDeadCapital then
        if (prof.map hasGatewayValue).getD false then 0.25 else 0.0
      else if fleet.medianRpsd ≤ 0.0 then 1.0
      else if fleet.medianRpsd ≤ channelEff.rpsd then
        1.0 + F64.min 0.5 ((channelEff.rpsd / fleet.medianRpsd - 1.0) * 0.25)
      else F64.max 0.5 (channelEff.rpsd / fleet.medianRpsd)

def detectPriorityClass (hasHardBleeders hasDepletedEarners : Bool) (reserveDeficit : ℤ) :
    PriorityClass :=
  if hasHardBleeders then .defensive
  else if hasDepletedEarners then .preservation
  else if 0 < reserveDeficit then .operational
  else .growth

def reserveDeficit (cfg : CapexConfig F) (onchainSats : ℤ) : ℤ :=
  max (cfg.minWalletReserve - onchainSats) 0

def walletExcessSats (cfg : CapexConfig F) (onchainSats : ℤ) : ℤ :=
  max (onchainSats - cfg.minWalletReserve) 0

def bootstrapWalletExplorationBudgetMsat (cfg : CapexConfig F) (onchainSats : ℤ)
    (summary : SpendSummary) : ℤ :=
  let reservedOpenSats := (summary.reservedByCategory.get? "channel_open").getD 0
  max (walletExcessSats cfg onchainSats - reservedOpenSats) 0 * msatPerSat

def walletExplorationFloorMsat (cfg : CapexConfig F) (onchainSats : ℤ) : ℤ :=
  if walletExcessSats cfg onchainSats ≤ 0 then 0
  else min (walletExcessSats cfg onchainSats) (max cfg.estimatedOpenCostSats 0) * msatPerSat

def applyCategorySpendRemaining (budgetMsat : ℤ) (summary : SpendSummary) (category : String) : ℤ :=
  let consumedSats := (summary.spentByCategory.get? category).getD 0 +
    (summary.reservedByCategory.get? category).getD 0
  max (budgetMsat - consumedSats * msatPerSat) 0

def windowedMsat (windowVal : Option ℤ) (fallbackMsat : ℤ) : ℤ := windowVal.getD fallbackMsat

end Helpers

section ChannelBudget

def roiMultiplier (prof : ChannelProfile F) : F :=
  if prof.marginalRoiReliable then clampF64 (1.0 + prof.marginalRoi) 0.25 1.5 else 1.0

def contribution30dMsat (prof : ChannelProfile F) : ℤ :=
  windowedMsat (prof.window30d.map Window30d.contribution30dMsat) prof.totalContributionMsat

def provenBudgetMsat (prof : ChannelProfile F) (totalCapex30dMsat : ℤ) (cfg : CapexConfig F) : ℤ :=
  max (F64.toI64 ((F64.ofInt (contribution30dMsat prof) : F) * cfg.capexReinvestmentRate) -
    totalCapex30dMsat) 0

def bootstrapBudgetMsat (prof : ChannelProfile F) (cfg : CapexConfig F) : ℤ :=
  min (F64.toI64 ((F64.ofInt (prof.capacitySats * msatPerSat) : F) *
    F64.ofInt cfg.capexBootstrapBps / 10000.0)) (cfg.capexBootstrapMaxSats * msatPerSat)

def bootstrapRemainingMsat (prof : ChannelProfile F) (totalCapex30dMsat : ℤ)
    (cfg : CapexConfig F) : ℤ :=
  max (bootstrapBudgetMsat prof cfg - totalCapex30dMsat) 0

structure TierGrant where
  tier : Tier
  tierPpm : ℤ
  priority : PriorityClass
  rawBudgetMsat : ℤ

/-- The tier of a channel that is not blocked outright; `none` is a channel without a tier. -/
def tierGrant (prof : ChannelProfile F) (totalCapex30dMsat : ℤ) (cfg : CapexConfig F) :
    Option TierGrant :=
  let proven := provenBudgetMsat prof totalCapex30dMsat cfg
  let bootstrap := bootstrapRemainingMsat prof totalCapex30dMsat cfg
  if 100 * msatPerSat < contribution30dMsat prof then some ⟨.proven, 2000, .preservation, proven⟩
  else if 5 < prof.totalForwardCount then
    some ⟨.active, 500, .preservation, if 0 < proven then max proven bootstrap else bootstrap⟩
  else if cfg.capexGraceDays ≤ prof.daysOpen then some ⟨.bootstrap, 250, .growth, bootstrap⟩
  else none

def computeChannelBudget (chId : String) (prof : ChannelProfile F) (totalCapex30dMsat : ℤ)
    (bleederStatus : Option String) (cfg : CapexConfig F)
    (fleetEfficiency : Option (FleetEfficiency F)) (successRate30d : Option F) :
    ChannelCapexBudget F :=
  if prof.classification = "zombie" then .blockedWithPriority chId .defensive
  else if bleederStatus = some "hard" then .blockedWithPriority chId .defensive
  else if prof.daysOpen < cfg.capexGraceDays ∧ prof.totalContributionMsat = 0 then .blocked chId
  else
    match tierGrant prof totalCapex30dMsat cfg with
    | none => .blocked chId
    | some grant =>
      { channelId := chId
        budgetMsat := F64.toI64 ((F64.ofInt grant.rawBudgetMsat : F) * roiMultiplier prof *
          efficiencyMultiplier chId fleetEfficiency (some prof))
        tier := grant.tier
        tierPpm := grant.tierPpm
        priorityClass := grant.priority
        successRate30d
        roiMultiplier := roiMultiplier prof }

end ChannelBudget

section Fleet

structure FleetTally (F : Type) where
  channelBudgets : Dict String (ChannelCapexBudget F)
  totalFleetContributionMsat : ℤ
  hardBleederCount : ℤ
  hardBleederCapacitySats : ℤ
  totalCapacitySats : ℤ
  hasDepletedEarners : Bool

def FleetTally.empty : FleetTally F := ⟨Table.empty, 0, 0, 0, 0, false⟩

def CapexEvidence.capexMsat (evidence : CapexEvidence F) (chId : String) : ℤ :=
  (((evidence.capexByChannelSats.getD Table.empty).get? chId).getD 0) * msatPerSat

def CapexEvidence.isHardBleeder (evidence : CapexEvidence F) (chId : String) : Bool :=
  evidence.bleederStatus.get? chId = some "hard"

def CapexEvidence.budgetOf (evidence : CapexEvidence F) (cfg : CapexConfig F) (chId : String)
    (prof : ChannelProfile F) : ChannelCapexBudget F :=
  computeChannelBudget chId prof (evidence.capexMsat chId) (evidence.bleederStatus.get? chId) cfg
    evidence.fleetEfficiency (evidence.successRates.get? chId)

def tallyChannel (evidence : CapexEvidence F) (cfg : CapexConfig F) (t : FleetTally F)
    (entry : String × ChannelProfile F) : FleetTally F :=
  let (chId, prof) := entry
  let hard := evidence.isHardBleeder chId
  { totalCapacitySats := t.totalCapacitySats + prof.capacitySats
    totalFleetContributionMsat := t.totalFleetContributionMsat +
      windowedMsat (prof.window30d.map Window30d.feesEarned30dMsat) prof.feesEarnedMsat
    hardBleederCount := if hard then t.hardBleederCount + 1 else t.hardBleederCount
    hardBleederCapacitySats := if hard then t.hardBleederCapacitySats + prof.capacitySats
      else t.hardBleederCapacitySats
    hasDepletedEarners := t.hasDepletedEarners ||
      (decide (100 * msatPerSat < prof.totalContributionMsat) &&
        (prof.classification == "underwater" || prof.classification == "stagnant_candidate"))
    channelBudgets := t.channelBudgets.insert chId (evidence.budgetOf cfg chId prof) }

def tallyFleet (evidence : CapexEvidence F) (cfg : CapexConfig F) : FleetTally F :=
  evidence.channels.rows.foldl (tallyChannel evidence cfg) .empty

/-- One small bleeder does not put the whole fleet on the defensive. -/
def hasHardBleeders (t : FleetTally F) : Bool :=
  decide (1 < t.hardBleederCount) ||
    (decide (0 < t.totalCapacitySats) &&
      decide ((0.10 : F) < F64.ofInt t.hardBleederCapacitySats / F64.ofInt t.totalCapacitySats))

def tacticalBudgetMsat (evidence : CapexEvidence F) (cfg : CapexConfig F) (t : FleetTally F) : ℤ :=
  max (min (reserveDeficit cfg evidence.onchainSats * msatPerSat)
    (F64.toI64 ((F64.ofInt t.totalFleetContributionMsat : F) * cfg.capexTacticalRate))) 0

def explorationBudgetMsat (evidence : CapexEvidence F) (cfg : CapexConfig F) (t : FleetTally F)
    (summary : SpendSummary) : ℤ :=
  if 0 < t.totalFleetContributionMsat then
    let revenueMsat :=
      F64.toI64 ((F64.ofInt t.totalFleetContributionMsat : F) * cfg.capexExplorationRate)
    applyCategorySpendRemaining
      (max revenueMsat (walletExplorationFloorMsat cfg evidence.onchainSats)) summary "channel_open"
  else bootstrapWalletExplorationBudgetMsat cfg evidence.onchainSats summary

def envelopeMsat (cfg : CapexConfig F) (rawTotalMsat : ℤ) : ℤ :=
  let envelope := if 0 < cfg.capexGlobalEnvelopeSats then cfg.capexGlobalEnvelopeSats * msatPerSat
    else rawTotalMsat
  let envelope :=
    if 0 < cfg.dailyBudgetSats then min envelope (cfg.dailyBudgetSats * 30 * msatPerSat)
    else envelope
  if 0 < cfg.weeklyBudgetSats then
    min envelope (F64.toI64 ((F64.ofInt cfg.weeklyBudgetSats : F) * F64.ofInt msatPerSat *
      (30.0 / 7.0)))
  else envelope

end Fleet

section Envelope

structure Budgets (F : Type) where
  channels : Dict String (ChannelCapexBudget F)
  explorationMsat : ℤ
  tacticalMsat : ℤ

def mapBudgets (f : ℤ → ℤ) (channels : Dict String (ChannelCapexBudget F)) :
    Dict String (ChannelCapexBudget F) where
  rows := channels.rows.map fun e => (e.1, { e.2 with budgetMsat := f e.2.budgetMsat })
  nodup := by
    rw [List.map_map]
    exact channels.nodup

def Budgets.map (f : ℤ → ℤ) (b : Budgets F) : Budgets F :=
  ⟨mapBudgets f b.channels, f b.explorationMsat, f b.tacticalMsat⟩

def channelTotalMsat (channels : Dict String (ChannelCapexBudget F)) : ℤ :=
  (channels.rows.map fun e => e.2.budgetMsat).sum

def Budgets.totalMsat (b : Budgets F) : ℤ :=
  channelTotalMsat b.channels + b.explorationMsat + b.tacticalMsat

def Budgets.enforce (envelope : ℤ) (b : Budgets F) : Budgets F :=
  if envelope < b.totalMsat ∧ 0 < b.totalMsat then
    let scale : F := F64.ofInt envelope / F64.ofInt b.totalMsat
    b.map fun budget => F64.toI64 ((F64.ofInt budget : F) * scale)
  else b

def dbDegraded (evidence : CapexEvidence F) : Bool :=
  evidence.capexByChannelSats.isNone || evidence.spendSummary.isNone

/-- The budgets before the envelope; without the history of spends there are none. -/
def rawBudgets (evidence : CapexEvidence F) (cfg : CapexConfig F) (t : FleetTally F) : Budgets F :=
  let summary := evidence.spendSummary.getD .default
  let budgets : Budgets F :=
    ⟨t.channelBudgets, explorationBudgetMsat evidence cfg t summary,
      applyCategorySpendRemaining (tacticalBudgetMsat evidence cfg t) summary "boltz"⟩
  if dbDegraded evidence then budgets.map fun _ => 0 else budgets

def ofPriority (channels : Dict String (ChannelCapexBudget F)) (p : PriorityClass) : ℤ :=
  ((channels.rows.filter fun e => e.2.priorityClass = p).map fun e => e.2.budgetMsat).sum

def computeAllocations (evidence : CapexEvidence F) (cfg : CapexConfig F) : CapexAllocations F :=
  let t := tallyFleet evidence cfg
  let raw := rawBudgets evidence cfg t
  let envelope := envelopeMsat cfg raw.totalMsat
  let b := raw.enforce envelope
  { priorityClass := detectPriorityClass (hasHardBleeders t) t.hasDepletedEarners
      (reserveDeficit cfg evidence.onchainSats)
    globalEnvelopeMsat := envelope
    channelBudgets := b.channels
    fleetExplorationBudgetMsat := b.explorationMsat
    tacticalBudgetMsat := b.tacticalMsat
    allocatedByPriorityMsat := Dict.insertAll Table.empty
      [(.defensive, ofPriority b.channels .defensive),
        (.preservation, ofPriority b.channels .preservation),
        (.operational, b.tacticalMsat), (.growth, b.explorationMsat)]
    totalFleetContributionMsat := t.totalFleetContributionMsat
    dbDegraded := dbDegraded evidence }

end Envelope

end Capex
