import Qtrade.Lib.Double
import Qtrade.Lib.Runs
import Qtrade.Lib.Waiting
import Qtrade.Lib.Locks
import Qtrade.Lib.Calls
import Qtrade.Lib.Alone
import Qtrade.Lib.Table
import Qtrade.Lib.Folds
import Qtrade.Lib.Joined
import Qtrade.Lib.Dedup
import Qtrade.Lib.Json
import Qtrade.Lib.Journal
import Qtrade.Lib.Budget
import Qtrade.Lib.Average
import Qtrade.Sdk
import Qtrade.Oms.Lifecycle
import Qtrade.Oms.OrderManager
import Qtrade.Cms
import Qtrade.Risk
import Qtrade.Ems
import Qtrade.Ems.Execution
import Qtrade.Ems.Wakeups
import Qtrade.Account
import Qtrade.Account.View
import Qtrade.Oms.Spec
import Qtrade.Oms.Startup
import Qtrade.Oms.Operations
import Qtrade.Oms.Final
import Qtrade.Oms.Apart
import Qtrade.Oms.Atomic
import Qtrade.Oms.Forward
import Qtrade.Oms.Terms
import Qtrade.Oms.Accumulation
import Qtrade.Oms.Exposure
import Qtrade.Position
import Qtrade.Position.Trades
import Qtrade.Position.Closing
import Qtrade.Position.Net
import Qtrade.Position.CostBasis
import Qtrade.DistinctFills
import Qtrade.Trading.System
import Qtrade.Trading.Steps
import Qtrade.Trading.Session
import Qtrade.Trading.Created
import Qtrade.Trading.Effects
import Qtrade.Trading.Reserved
import Qtrade.Trading.Reported
import Qtrade.Trading.Past
import Qtrade.Trading.Accounted
import Qtrade.Trading.AtMostOnce
import Qtrade.Trading.Release
import Qtrade.Trading.Vetted
import Qtrade.Trading.HandedOver
import Qtrade.Trading.Budget
import Qtrade.Trading.Cancel
import Qtrade.Trading.CancelRace
import Qtrade.Trading.Sender
import Qtrade.Trading.Batches
import Qtrade.Trading.Ledger
import Qtrade.Trading.Drain
import Qtrade.Trading.Resubmit
import Qtrade.Oms.Convergence
import Qtrade.Oms.Fills
import Qtrade.Engine.BrokerState
import Qtrade.Engine.TradingEngine
import Qtrade.Engine.Configured
import Qtrade.Engine.Applied
import Qtrade.Engine.MarketData
import Qtrade.Engine.Recovery
import Qtrade.Engine.Mutexes
import Qtrade.Engine.StartSequence
import Qtrade.Engine.ReactorStop
import Qtrade.Engine.QuoteHealth
import Qtrade.Engine.FreezeRequests
import Qtrade.Engine.Lane
import Qtrade.Engine.Venue
import Qtrade.Engine.Mirrors
import Qtrade.Engine.Covered
import Qtrade.Engine.NothingLost
import Qtrade.Engine.Lookup
import Qtrade.Engine.Reconciled
import Qtrade.Engine.OrderIds
import Qtrade.Engine.Redelivery
import Qtrade.Engine.Frozen
import Qtrade.Engine.Strategies
import Qtrade.Engine.EventLanes
import Qtrade.Engine.LaneMoves
import Qtrade.Engine.HandlerLifetime
import Qtrade.Engine.BooksFirst
import Qtrade.Engine.CashAndHoldings
import Qtrade.Engine.Restarts
import Qtrade.Engine.Leftovers
import Qtrade.Strategy.Manager
import Qtrade.Strategy.Routing
import Qtrade.Strategy.Names
import Qtrade.Strategy.Load
import Qtrade.Strategy.Plugins
import Qtrade.Strategy.Host
import Qtrade.Strategy.Lifetime
import Qtrade.Config
import Qtrade.Config.Bootstrap
import Qtrade.Config.RoundTrip
import Qtrade.EventBus
import Qtrade.EventBus.Wakeups
