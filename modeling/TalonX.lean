import TalonX.Transact.Prog
import TalonX.Transact.Hoare
import TalonX.Transact.Interleave
import TalonX.Transact.Table
import TalonX.V2.Calendar
import TalonX.V2.Schemas
import TalonX.V2.Store
import TalonX.V2.Sizing
import TalonX.V2.Paper
import TalonX.Ops.LedgerGuard
import TalonX.V2.Ledger
import TalonX.V2.ClusterEngine
import TalonX.V2.Liquidity
import TalonX.V2.CorporateActions
import TalonX.V2.Dividends
import TalonX.V2.Pipeline
import TalonX.V2.Cutover
import TalonX.V2.Calls
import TalonX.V2.Life
import TalonX.V2.Reservation
import TalonX.V2.StaysEntered
import TalonX.V2.TerminalIntent
import TalonX.V2.IntentExpiry
import TalonX.V2.TradeAlerts
import TalonX.V2.Pricing
import TalonX.V2.ExitWindow
import TalonX.V2.DividendOnce
import TalonX.Ops.StartLock
import TalonX.Ops.LockExclusion
import TalonX.V2.ProviderRecords
import TalonX.V2.SplitNeutrality
import TalonX.Transact.Sorting
import TalonX.V2.ClusterCausality
import TalonX.V2.EpisodeIdentity
import TalonX.V2.Lookback
import TalonX.Ops.AccountBlocks
import TalonX.Ops.BlockGate
import TalonX.Paper.Engine
import TalonX.Paper.Store
import TalonX.Paper.Consumer
import TalonX.Paper.Conservation
import TalonX.Transact.Guarded
import TalonX.Transact.WalFile
import TalonX.Paper.Instances
import TalonX.Paper.LostUpdate
import TalonX.Delivery.Schemas
import TalonX.Transact.Protocol
import TalonX.Delivery.Outbox
import TalonX.Delivery.Pipeline
import TalonX.Delivery.Phases
import TalonX.Delivery.AtMostOnce
import TalonX.Delivery.SentRecords
import TalonX.Delivery.DigestReplies
import TalonX.Delivery.FreshSends
import TalonX.Core.PyFloat
import TalonX.Core.Schemas
import TalonX.Core.Decision
import TalonX.Core.AlertOutbox
import TalonX.Core.Dispatch
import TalonX.Core.Engine
import TalonX.Core.Handover
import TalonX.Core.Receipt
import TalonX.Core.Containment
import TalonX.Core.Life
import TalonX.Core.Restart
import TalonX.Core.Arrival
import TalonX.Core.Spacing
import TalonX.Notify.Outbox
import TalonX.Notify.NoBlindResend
import TalonX.Piv.Lifecycle
import TalonX.Piv.World
import TalonX.Piv.Books
import TalonX.Piv.Safety
import TalonX.Piv.Careful
import TalonX.Piv.Holdings
import TalonX.Piv.NoOversell
import TalonX.Piv.Matched
import TalonX.Piv.ReconcileRun
import TalonX.Piv.Change
import TalonX.Piv.Engine
import TalonX.Piv.Exits
import TalonX.Piv.TriggeredExit
import TalonX.V2.ClusterOrder
import TalonX.V2.ClusterSpec
import TalonX.V2.MaximalSizing
import TalonX.V2.BlockTrail
import TalonX.V2.EntitledShares
import TalonX.V2.DueExits
import TalonX.Clock.IsoFormat
import TalonX.Notify.AlertDelivery
import TalonX.Notify.DeliveryLife
import TalonX.Paper.PublicMethods
import TalonX.Paper.FailedTrade
import TalonX.Piv.EodLifecycle
import TalonX.Piv.EodTruth
import TalonX.Piv.ExperimentRun
import TalonX.Piv.BudgetKept
import TalonX.Piv.ConcurrentExposure
import TalonX.Piv.ExperimentLimits
import TalonX.Delivery.DeferBackoff
import TalonX.Core.LongTermHistory
import TalonX.Transact.Runs
import TalonX.Core.RoicStreak
import TalonX.Core.DegradedBaseline
import TalonX.V2.PriceSplice
import TalonX.Quant.Buffer
import TalonX.Quant.Aggregation
import TalonX.Quant.Consumer
import TalonX.Quant.MinuteBars
import TalonX.Quant.MinuteExact
import TalonX.Backtest.MarketState
import TalonX.Quant.CoarseBars
import TalonX.Ingest.EdgarNormalize
import TalonX.Ingest.FeedMerge
import TalonX.Ingest.Poller
import TalonX.Transact.Amid
import TalonX.V2.CutoverRun
import TalonX.Transact.Grouping
import TalonX.V2.SipAdapter
import TalonX.V2.SipRows
import TalonX.Piv.RealisedPnl
import TalonX.Clock.Date
import TalonX.Insider.Activity
import TalonX.Insider.Causality
import TalonX.Notify.DrainMirror
import TalonX.Core.PyFloatOrder
import TalonX.Piv.AuthorizationFile
import TalonX.Piv.FailsClosed
import TalonX.Piv.ShadowIndexes
import TalonX.Piv.ShadowPrices
import TalonX.Piv.ShadowTrades
import TalonX.Significance.Accounting
import TalonX.Significance.BandPolicy
import TalonX.Significance.Fields
import TalonX.Significance.FingerprintSound
import TalonX.Significance.Recompute
import TalonX.V2.SessionArithmetic
import TalonX.Insider.MergeOrder
import TalonX.Quant.Contracts
import TalonX.Quant.Gates
import TalonX.Backtest.Causality
import TalonX.Backtest.Chronology
import TalonX.Backtest.Flatten
import TalonX.Backtest.Funnel
import TalonX.Backtest.Spacing
import TalonX.Backtest.Tally
