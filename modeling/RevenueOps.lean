import RevenueOps.BroadcastInterleavings
import RevenueOps.BroadcastRestarts
import RevenueOps.CanonicalText
import RevenueOps.CapexEnvelope
import RevenueOps.CongestionEpisodes
import RevenueOps.ContextualRuns
import RevenueOps.CostRuns
import RevenueOps.CutoverSessions
import RevenueOps.CycleRecords
import RevenueOps.CycleRouterLayers
import RevenueOps.DefibrillatorSafety
import RevenueOps.EconLedgerReplay
import RevenueOps.FailureNudges
import RevenueOps.FeeCompleteness
import RevenueOps.FeeConfigRanges
import RevenueOps.FeeDeferral
import RevenueOps.FeeRecords
import RevenueOps.FlushWatcher
import RevenueOps.GovernorHolds
import RevenueOps.GovernorSlots
import RevenueOps.InitialFee
import RevenueOps.KalmanRuns
import RevenueOps.LedgerReading
import RevenueOps.LoadedStates
import RevenueOps.LoopHealthRuns
import RevenueOps.ManualSubmissions
import RevenueOps.OwnerStoreRuns
import RevenueOps.PartialLadder
import RevenueOps.PaymentWindow
import RevenueOps.PlannerSelection
import RevenueOps.PolicyMutationRuns
import RevenueOps.PricingOverflow
import RevenueOps.RailAgreement
import RevenueOps.ReconcileInFlight
import RevenueOps.RegistryRuns
import RevenueOps.RegressionSolvability
import RevenueOps.ReservationIds
import RevenueOps.RetentionSweep
import RevenueOps.SegmentEviction
import RevenueOps.SpendReserveRace
import RevenueOps.StartupHydration
import RevenueOps.SupersededIntents
import RevenueOps.SweepAgreement
import RevenueOps.ThompsonRuns
import RevenueOps.LearnedStateWriting
