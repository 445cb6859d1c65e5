import YdeltaCrankers.Cache.Age
import YdeltaCrankers.Config.RedactUrl
import YdeltaCrankers.Handlers.Broadcasts
import YdeltaCrankers.Handlers.Gate
import YdeltaCrankers.Handlers.MarketBytes
import YdeltaCrankers.Handlers.MatchLog
import YdeltaCrankers.Handlers.Sweeping
import YdeltaCrankers.Liquidation.Completeness
import YdeltaCrankers.Liquidation.Fallback
import YdeltaCrankers.Liquidation.Feeds
import YdeltaCrankers.Liquidation.Maturity
import YdeltaCrankers.Liquidation.Prefilter
import YdeltaCrankers.Liquidation.Sizing
import YdeltaCrankers.MarginfiBank.Oracles
import YdeltaCrankers.Process.AtaBalances
import YdeltaCrankers.Process.Health
import YdeltaCrankers.Process.LowBalance
import YdeltaCrankers.Process.Readiness
import YdeltaCrankers.Process.Scaling
import YdeltaCrankers.Process.Shutdown
import YdeltaCrankers.Process.Startup
import YdeltaCrankers.Process.Stopping
import YdeltaCrankers.Process.Supervision
import YdeltaCrankers.Process.Surfacing
import YdeltaCrankers.Rpc.Agreement
import YdeltaCrankers.Rpc.Failure
import YdeltaCrankers.Rpc.Landing
import YdeltaCrankers.Rpc.Rejection
import YdeltaCrankers.Rpc.Success
import YdeltaCrankers.SwbCranker.Once
