import Btcbot.Grid
import Btcbot.SortedFold
import Btcbot.Money
import Btcbot.PyData
import Btcbot.Fifo
import Btcbot.Ledger
import Btcbot.LedgerConservation
import Btcbot.LedgerOrder
import Btcbot.LedgerReplay
import Btcbot.Idempotency
import Btcbot.Effects
import Btcbot.ExchangeErrors
import Btcbot.ExecutionWrapper
import Btcbot.OrderSizing
import Btcbot.Stage3Store
import Btcbot.Stage3Intent
import Btcbot.Stage3Service
import Btcbot.Stage3Execute
import Btcbot.Stage3Frame
import Btcbot.UnknownFreeze
import Btcbot.PlaceRecords
import Btcbot.PlaceSubmit
import Btcbot.PlaceGuarantees
import Btcbot.Stage4Accounting
import Btcbot.FillsOnce
import Btcbot.OmsService
import Btcbot.OrderMoves
import Btcbot.Capital
import Btcbot.Degrade
import Btcbot.Attempts
import Btcbot.PrivateRequest
import Btcbot.RestClient
import Btcbot.KeyedTable
import Btcbot.Stage4Reconcile
import Btcbot.Stage4Store
import Btcbot.Stage4Execute
import Btcbot.Stage4Gate
import Btcbot.Stage4Submit
import Btcbot.Stage4Replace
import Btcbot.Stage4Resubmit
import Btcbot.Stage4Orphan
import Btcbot.SubmitKeys
import Btcbot.OrderBounds
import Btcbot.AccountingLedger
import Btcbot.AccountingOrder
import Btcbot.AccountingEquity
import Btcbot.MismatchFreeze
import Btcbot.Stage3Accounting
import Btcbot.Stage4Absence
import Btcbot.EventLog
import Btcbot.UnknownResolution
import Btcbot.FilledOrders
import Btcbot.Stage7Booking
import Btcbot.Stage7Once
import Btcbot.AllocationService
import Btcbot.DecisionPipeline
import Btcbot.CycleCap
import Btcbot.DynamicUniverse
import Btcbot.RiskCooldown
import Btcbot.UniverseRefresh
import Btcbot.UniverseChurn
import Btcbot.SelectionChurn
import Btcbot.AdaptationRuns
import Btcbot.ParamVersions
import Btcbot.RoleKeys
import Btcbot.RoleState
import Btcbot.SubmittedRow
import Btcbot.AgentGuard
import Btcbot.OrderBuilder
import Btcbot.PlanFunding
import Btcbot.MarketDataReplay
import Btcbot.RiskPolicy
import Btcbot.RiskPolicyService
import Btcbot.RiskApprovals
import Btcbot.BalancePrecheck
import Btcbot.AllocationBudget
import Btcbot.PositionLimits
import Btcbot.AggressivePlan
import Btcbot.PlanLimits
import Btcbot.Portions
import Btcbot.Gathering
import Btcbot.EqualPurchases
import Btcbot.FirstShares
import Btcbot.ScaledPlan
import Btcbot.CycleBids
import Btcbot.CapBids
import Btcbot.PlanParity
import Btcbot.CycleParity
import Btcbot.BuiltOrders
import Btcbot.OrderLifecycle
import Btcbot.SubmitSizing
import Btcbot.ActionToOrder
import Btcbot.NotionalSizing
import Btcbot.DecimalFormat
import Btcbot.PlaceOrder
import Btcbot.Redelivery
import Btcbot.ReconcilerMerge
import Btcbot.MarketDataService
import Btcbot.SymbolCooldowns
import Btcbot.KernelOrders
import Btcbot.LedgerLocality
import Btcbot.Drawdown
import Btcbot.TextPattern
import Btcbot.Redaction
import Btcbot.TokenBucket
import Btcbot.RateLimiter
import Btcbot.RetryBackoff
import Btcbot.DryRunClient
import Btcbot.SweepService
import Btcbot.JsonText
import Btcbot.IsoTime
import Btcbot.LedgerCheckpoint
import Btcbot.InstanceLock
import Btcbot.SingleFlight
import Btcbot.OrderbookFlight
import Btcbot.LedgerMetrics
import Btcbot.Ranking
import Btcbot.UniverseScoring
import Btcbot.RiskBudget
import Btcbot.CycleGate
import Btcbot.CycleExecution
import Btcbot.Streak
import Btcbot.AnomalyDetector
import Btcbot.DegradeLoop
import Btcbot.StableSort
import Btcbot.DrawdownHistory
import Btcbot.ExchangeRules
import Btcbot.ListedOrders
import Btcbot.Stage7Filter
