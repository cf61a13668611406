import TradingInfrastructure.Common.SymbolMapper
import TradingInfrastructure.Common.SymbolParsers
import TradingInfrastructure.Common.SymbolRoundTrip
import TradingInfrastructure.Common.Types
import TradingInfrastructure.Connectors.AcceptedAnswers
import TradingInfrastructure.Connectors.AccountSize
import TradingInfrastructure.Connectors.Base64Url
import TradingInfrastructure.Connectors.BinanceConnector
import TradingInfrastructure.Connectors.BinanceFuturesConnector
import TradingInfrastructure.Connectors.ClientOrderIds
import TradingInfrastructure.Connectors.CoinbaseConnector
import TradingInfrastructure.Connectors.ConnectorRuns
import TradingInfrastructure.Connectors.FormDecoding
import TradingInfrastructure.Connectors.IdempotencyJournal
import TradingInfrastructure.Connectors.JournalCapacity
import TradingInfrastructure.Connectors.JournalContents
import TradingInfrastructure.Connectors.JournalCrash
import TradingInfrastructure.Connectors.JournalReplay
import TradingInfrastructure.Connectors.JournalSteps
import TradingInfrastructure.Connectors.JournalText
import TradingInfrastructure.Connectors.KrakenConnector
import TradingInfrastructure.Connectors.LiveConnectorBase
import TradingInfrastructure.Connectors.OkxConnector
import TradingInfrastructure.Connectors.OrderEncoding
import TradingInfrastructure.Connectors.OrderHonesty
import TradingInfrastructure.Connectors.OrderIdentity
import TradingInfrastructure.Connectors.OrderNormalization
import TradingInfrastructure.Connectors.OrderPayload
import TradingInfrastructure.Connectors.OrderRuns
import TradingInfrastructure.Connectors.OrphanOrders
import TradingInfrastructure.Connectors.ReadableFetches
import TradingInfrastructure.Connectors.ReadableReplies
import TradingInfrastructure.Connectors.ReadableRequests
import TradingInfrastructure.Connectors.ReadableSnapshots
import TradingInfrastructure.Connectors.Reconnect
import TradingInfrastructure.Connectors.RetryIdempotence
import TradingInfrastructure.Connectors.TornRecords
import TradingInfrastructure.Connectors.VenueConnectors
import TradingInfrastructure.Connectors.VenueOrders
import TradingInfrastructure.Connectors.VenueReplies
import TradingInfrastructure.Engine.CommittedExposure
import TradingInfrastructure.Engine.DrawdownGuard
import TradingInfrastructure.Engine.EngineBooks
import TradingInfrastructure.Engine.FuturesOrders
import TradingInfrastructure.Engine.Heartbeat
import TradingInfrastructure.Engine.KillSwitchCancels
import TradingInfrastructure.Engine.LiveLoop
import TradingInfrastructure.Engine.MainLoop
import TradingInfrastructure.Engine.QualityTracking
import TradingInfrastructure.Engine.QuarantinedVenues
import TradingInfrastructure.Engine.ShadowShutdown
import TradingInfrastructure.Engine.StaleBooks
import TradingInfrastructure.Engine.SubmitDecision
import TradingInfrastructure.Engine.VenueQualityRuntime
import TradingInfrastructure.Engine.VenueQuotes
import TradingInfrastructure.Engine.VenueRanking
import TradingInfrastructure.Feeds.BinanceFeedHandler
import TradingInfrastructure.Feeds.BinanceReplay
import TradingInfrastructure.Feeds.BinanceSync
import TradingInfrastructure.Feeds.BookManager
import TradingInfrastructure.Feeds.CoinbaseConnections
import TradingInfrastructure.Feeds.CoinbaseFeedHandler
import TradingInfrastructure.Feeds.CoinbaseSync
import TradingInfrastructure.Feeds.Conversions
import TradingInfrastructure.Feeds.FragmentBuffers
import TradingInfrastructure.Feeds.Json
import TradingInfrastructure.Feeds.KrakenFeedHandler
import TradingInfrastructure.Feeds.KrakenMirror
import TradingInfrastructure.Feeds.MalformedInput
import TradingInfrastructure.Feeds.OkxFeedHandler
import TradingInfrastructure.Feeds.OkxIntegrity
import TradingInfrastructure.Feeds.StreamingBooks
import TradingInfrastructure.Feeds.UsableBook
import TradingInfrastructure.Foundations.Argsort
import TradingInfrastructure.Foundations.AverageCost
import TradingInfrastructure.Foundations.CapacityAllocation
import TradingInfrastructure.Foundations.Causal
import TradingInfrastructure.Foundations.DecimalText
import TradingInfrastructure.Foundations.Drawdown
import TradingInfrastructure.Foundations.Exposure
import TradingInfrastructure.Foundations.Fallible
import TradingInfrastructure.Foundations.FieldCopies
import TradingInfrastructure.Foundations.Fields
import TradingInfrastructure.Foundations.FirstMatch
import TradingInfrastructure.Foundations.FirstMinimum
import TradingInfrastructure.Foundations.FixedWindow
import TradingInfrastructure.Foundations.Inbox
import TradingInfrastructure.Foundations.Lockout
import TradingInfrastructure.Foundations.PartialView
import TradingInfrastructure.Foundations.RacingWindow
import TradingInfrastructure.Foundations.Rearming
import TradingInfrastructure.Foundations.Reassembly
import TradingInfrastructure.Foundations.RecentWrites
import TradingInfrastructure.Foundations.Retries
import TradingInfrastructure.Foundations.RingBuffer
import TradingInfrastructure.Foundations.Runs
import TradingInfrastructure.Foundations.SixBitDigits
import TradingInfrastructure.Foundations.SlidingWindow
import TradingInfrastructure.Foundations.SlotPool
import TradingInfrastructure.Foundations.Smoothing
import TradingInfrastructure.Foundations.SortedMap
import TradingInfrastructure.Foundations.Streaks
import TradingInfrastructure.Ipc.CoreBridge
import TradingInfrastructure.Ipc.LobPublisher
import TradingInfrastructure.Ipc.RingReader
import TradingInfrastructure.Ipc.SharedRing
import TradingInfrastructure.Ipc.SignalSeqlock
import TradingInfrastructure.MarketMaker.EntryPrice
import TradingInfrastructure.MarketMaker.NeuralAlphaMarketMaker
import TradingInfrastructure.MarketMaker.PositionLimit
import TradingInfrastructure.MarketMaker.QuotingMemory
import TradingInfrastructure.OrderBook.Acceptance
import TradingInfrastructure.OrderBook.AnyPrice
import TradingInfrastructure.OrderBook.Basic
import TradingInfrastructure.OrderBook.Bounds
import TradingInfrastructure.OrderBook.Deletes
import TradingInfrastructure.OrderBook.Grid
import TradingInfrastructure.OrderBook.PriceDrift
import TradingInfrastructure.OrderBook.Soundness
import TradingInfrastructure.OrderBook.Steps
import TradingInfrastructure.OrderBook.Touch
import TradingInfrastructure.Orders.Channels
import TradingInfrastructure.Orders.FillDelivery
import TradingInfrastructure.Orders.OrderManager
import TradingInfrastructure.Orders.PendingLedger
import TradingInfrastructure.Orders.PendingQuantity
import TradingInfrastructure.Orders.QueueInterleavings
import TradingInfrastructure.Orders.SpscQueue
import TradingInfrastructure.Portfolio.Affordability
import TradingInfrastructure.Portfolio.Conservation
import TradingInfrastructure.Portfolio.IntentConsistency
import TradingInfrastructure.Portfolio.IntentSymmetry
import TradingInfrastructure.Portfolio.LedgerReconciliation
import TradingInfrastructure.Portfolio.LiveSessionAccounting
import TradingInfrastructure.Portfolio.PortfolioIntentEngine
import TradingInfrastructure.Portfolio.PositionLedger
import TradingInfrastructure.Portfolio.RegimeHysteresis
import TradingInfrastructure.Portfolio.SessionFees
import TradingInfrastructure.Portfolio.TradeNeutrality
import TradingInfrastructure.Reconciliation.Coverage
import TradingInfrastructure.Reconciliation.DecisionMemory
import TradingInfrastructure.Reconciliation.Drift
import TradingInfrastructure.Reconciliation.FillIdentity
import TradingInfrastructure.Reconciliation.Quarantine
import TradingInfrastructure.Reconciliation.Service
import TradingInfrastructure.Reconciliation.Snapshot
import TradingInfrastructure.Reconciliation.Symmetry
import TradingInfrastructure.Research.Backtest
import TradingInfrastructure.Research.BacktestDrawdown
import TradingInfrastructure.Research.DailyTrain
import TradingInfrastructure.Research.Folds
import TradingInfrastructure.Research.Governance
import TradingInfrastructure.Research.Labels
import TradingInfrastructure.Research.LobFeatures
import TradingInfrastructure.Research.ModelGuards
import TradingInfrastructure.Research.RegimeFeatures
import TradingInfrastructure.Research.RegimeInference
import TradingInfrastructure.Research.RegimeTraining
import TradingInfrastructure.Research.Rollback
import TradingInfrastructure.Research.RollingNormalise
import TradingInfrastructure.Research.SafeMode
import TradingInfrastructure.Research.SessionRecords
import TradingInfrastructure.Research.ShadowSession
import TradingInfrastructure.Research.SpreadSeparation
import TradingInfrastructure.Research.TimestampQuality
import TradingInfrastructure.Research.TrainingHost
import TradingInfrastructure.Research.VenueHealth
import TradingInfrastructure.Research.WalkForward
import TradingInfrastructure.Risk.CircuitBreaker
import TradingInfrastructure.Risk.GlobalRiskControls
import TradingInfrastructure.Risk.Netting
import TradingInfrastructure.Risk.OrderRate
import TradingInfrastructure.Risk.RacingRates
import TradingInfrastructure.Risk.SymbolTable
import TradingInfrastructure.Risk.Totals
import TradingInfrastructure.Router.ChildOrderScheduler
import TradingInfrastructure.Router.ParentOrderManager
import TradingInfrastructure.Router.ParentPlan
import TradingInfrastructure.Router.ReferencePrice
import TradingInfrastructure.Router.RouteOptimality
import TradingInfrastructure.Router.RoutingMemory
import TradingInfrastructure.Router.ScheduledVenues
import TradingInfrastructure.Router.SmartOrderRouter
import TradingInfrastructure.Router.StylePrices
import TradingInfrastructure.Router.VenueQualityBounds
import TradingInfrastructure.Router.VenueQualityModel
import TradingInfrastructure.Shadow.Accounting
import TradingInfrastructure.Shadow.Checks
import TradingInfrastructure.Shadow.Connector
import TradingInfrastructure.Shadow.DecisionLog
import TradingInfrastructure.Shadow.FeeLiquidity
import TradingInfrastructure.Shadow.LedgerAgreement
import TradingInfrastructure.Shadow.Lifecycle
import TradingInfrastructure.Shadow.LimitPrices
import TradingInfrastructure.Shadow.LogCompleteness
import TradingInfrastructure.Shadow.OrderLife
import TradingInfrastructure.Shadow.SlotSteps
import TradingInfrastructure.Shadow.TimeInForce
