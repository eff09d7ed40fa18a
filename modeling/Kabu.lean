import Kabu.Properties.Commit
import Kabu.Properties.BatchUpdate
import Kabu.Properties.CachingReads
import Kabu.Properties.Replay
import Kabu.Properties.PoolLoads
import Kabu.Properties.PackedCalls
import Kabu.Properties.HeadTrackers
import Kabu.Properties.HistoryBound
import Kabu.Properties.DiffTwice
import Kabu.Properties.DiffFrame
import Kabu.Properties.SoundSteps
import Kabu.Properties.SwappedOnce
import Kabu.Properties.SplitQuotes
import Kabu.Properties.LineQuote
import Kabu.Properties.LineProfit
import Kabu.Properties.DisabledPaths
import Kabu.Properties.StateOverride
import Kabu.Properties.GethAppliers
import Kabu.Properties.SearchDedup
import Kabu.Properties.SearchedPaths
import Kabu.Properties.MergedPaths
import Kabu.Properties.MergedTips
import Kabu.Properties.BestAnswers
import Kabu.Properties.StuffingOrder
import Kabu.Properties.RequestedPools
import Kabu.Properties.TrackedNonces
import Kabu.Properties.TrackedBalances
import Kabu.Properties.WorkerFailures
import Kabu.Properties.PriceMoves
import Kabu.Properties.StepContract
import Kabu.Properties.RoundTrips
import Kabu.Properties.UnreadableState
import Kabu.Properties.PairQuotes
import Kabu.Strategy.DiffPathMerger
import Kabu.Core.SwapRouter
import Kabu.Properties.InitializedTicks
import Kabu.Properties.TipSchedule
import Kabu.Properties.TickPrices
