import Windbreak.RiskKernel.AggregateCaps
import Windbreak.RiskKernel.BreachHalts
import Windbreak.RiskKernel.KillReplay
import Windbreak.RiskKernel.KilledReleases
import Windbreak.RiskKernel.ModeSafety
import Windbreak.OrderGateway.Authorised
import Windbreak.OrderGateway.SubmittedOnce
import Windbreak.OrderGateway.HaltLatch
import Windbreak.RiskKernel.ReservationReplay
import Windbreak.Ledger.Anchor
import Windbreak.OrderGateway.WalExact
import Windbreak.RiskKernel.EntriesOnce
import Windbreak.Forecast.Retry
import Windbreak.Scheduler.BudgetDurable
import Windbreak.Evaluation.Hindsight
import Windbreak.Evaluation.VerbRuns
import Windbreak.RiskKernel.AckBinding
import Windbreak.Selector.Exits
import Windbreak.Scheduler.DailyNotional
import Windbreak.Evaluation.PlanRuns
import Windbreak.OrderGateway.SingleUse
import Windbreak.OrderGateway.HeldOutcome
import Windbreak.RiskKernel.WholePosition
import Windbreak.RiskKernel.RatchetBound
import Windbreak.OrderGateway.SweepExact
import Windbreak.RiskKernel.AdverseChange
import Windbreak.Connector.SharedVolume
import Windbreak.Forecast.Coherence
import Windbreak.Forecast.VotePrompt
import Windbreak.Forecast.VoteResponse
import Windbreak.Forecast.Calibration
import Windbreak.Scheduler.MissingEvidence
import Windbreak.Selector.PricedFill
import Windbreak.Scheduler.SampledEquity
import Windbreak.Connector.SchemaDrift
import Windbreak.Forecast.ResearchCache
import Windbreak.Forecast.Egress
import Windbreak.Connector.RateBound
import Windbreak.Connector.CatalogueScan
import Windbreak.Evaluation.Bootstrap
import Windbreak.Evaluation.MetricErrors
import Windbreak.Scheduler.BeatSupervisor
import Windbreak.Forecast.Cassettes
import Windbreak.LoggingSetup
import Windbreak.Config.Loading
import Windbreak.Forecast.CanaryBattery
import Windbreak.Forecast.Identities
