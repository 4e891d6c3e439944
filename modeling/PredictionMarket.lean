import PredictionMarket.Library.Table
import PredictionMarket.Library.Result
import PredictionMarket.Library.Run
import PredictionMarket.Library.WaitFor
import PredictionMarket.Library.ReadCommitted
import PredictionMarket.Library.GuardedUpdate
import PredictionMarket.Library.Allotment
import PredictionMarket.Library.Precedence
import PredictionMarket.Library.RowActions
import PredictionMarket.Library.AverageCost
import PredictionMarket.Library.Keyset
import PredictionMarket.Domain.Types
import PredictionMarket.Common.IdGenerator
import PredictionMarket.Store.Rows
import PredictionMarket.Store.Query
import PredictionMarket.Matching.OrderBook
import PredictionMarket.Matching.MatchOrder
import PredictionMarket.Matching.Termination
import PredictionMarket.Matching.BookCalls
import PredictionMarket.Matching.Sweep
import PredictionMarket.Matching.PriceLevels
import PredictionMarket.Matching.OwnOrders
import PredictionMarket.Matching.TimePriority
import PredictionMarket.Matching.GreedyWalk
import PredictionMarket.Matching.FillSoundness
import PredictionMarket.Matching.Mirror
import PredictionMarket.Market.Cursor
import PredictionMarket.Market.Listing
import PredictionMarket.Market.MalformedCursor
import PredictionMarket.Market.OrderbookView
import PredictionMarket.Clearing.Scenarios
import PredictionMarket.Clearing.Statements
import PredictionMarket.Clearing.Inversion
import PredictionMarket.Clearing.CostConservation
import PredictionMarket.Clearing.FeeCollector
import PredictionMarket.Clearing.FrozenFunds
import PredictionMarket.Clearing.CashConservation
import PredictionMarket.Clearing.Columns
import PredictionMarket.Clearing.Frames
import PredictionMarket.Clearing.PendingShares
import PredictionMarket.Clearing.Mirror
import PredictionMarket.Clearing.TradeHistory
import PredictionMarket.Engine.Database
import PredictionMarket.Clearing.ShareConservation
import PredictionMarket.Engine.PrivilegedMint
import PredictionMarket.Engine.PlaceOrder
import PredictionMarket.Engine.BusinessErrors
import PredictionMarket.Engine.Inversion
import PredictionMarket.Engine.FillRun
import PredictionMarket.Engine.MatchingEngine
import PredictionMarket.Engine.RestingView
import PredictionMarket.Engine.LockedFunds
import PredictionMarket.Engine.FillFunds
import PredictionMarket.Engine.Services
import PredictionMarket.Engine.BookSimulation
import PredictionMarket.Engine.PlaceFunds
import PredictionMarket.Engine.Resolution
import PredictionMarket.Engine.ResolutionPayout
import PredictionMarket.Engine.Recovery
import PredictionMarket.Engine.ReleaseFunds
import PredictionMarket.Engine.FundsRuns
import PredictionMarket.Engine.Sessions
import PredictionMarket.Engine.PlaceFrames
import PredictionMarket.Engine.PendingOrders
import PredictionMarket.Engine.OrderLifecycle
import PredictionMarket.Engine.Releases
import PredictionMarket.Engine.Idempotency
import PredictionMarket.Engine.AuditTrail
import PredictionMarket.Engine.AccountLedger
import PredictionMarket.Engine.BatchCancel
import PredictionMarket.Engine.ReplaceRejection
import PredictionMarket.Engine.LeftoverFunds
import PredictionMarket.Engine.FeeBuffer
import PredictionMarket.Engine.TakerFee
import PredictionMarket.Engine.StorableFills
import PredictionMarket.Engine.NettingCoverage
import PredictionMarket.Engine.AverageCost
import PredictionMarket.Engine.Bystanders
import PredictionMarket.Engine.MarketHealth
import PredictionMarket.Engine.Solvency
import PredictionMarket.Engine.FillFees
import PredictionMarket.Engine.CashFlow
import PredictionMarket.Engine.TradeIntegrity
import PredictionMarket.Engine.UncrossedBooks
import PredictionMarket.Admin.GlobalInvariants
import PredictionMarket.Admin.MarketStats
import PredictionMarket.Concurrency.BatchLocks
import PredictionMarket.Concurrency.Statements
import PredictionMarket.Account.Repository
import PredictionMarket.Concurrency.Wallets
import PredictionMarket.Concurrency.PrivilegedCalls
import PredictionMarket.Concurrency.KeySpending
import PredictionMarket.Concurrency.ResolveProgram
import PredictionMarket.Concurrency.Resolvers
import PredictionMarket.Gateway.Tokens
import PredictionMarket.Gateway.Users
import PredictionMarket.Gateway.Inversion
import PredictionMarket.Gateway.Access
import PredictionMarket.Library.UniqueInsert
import PredictionMarket.Gateway.Registrations
import PredictionMarket.Market.DisplayedBook
import PredictionMarket.Library.LivePages
import PredictionMarket.Account.LedgerPages
import PredictionMarket.Orders.OrderPages
