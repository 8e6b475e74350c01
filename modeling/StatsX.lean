import StatsX.Lib.Bounded
import StatsX.Lib.Run
import StatsX.Lib.Purge
import StatsX.Lib.Commute
import StatsX.Lib.Trace
import StatsX.Lib.Since
import StatsX.Lib.History
import StatsX.Lib.Matching
import StatsX.Lib.Tally
import StatsX.Lib.Word
import StatsX.Lib.CString
import StatsX.Lib.Writes
import StatsX.Model.Game
import StatsX.Model.Player
import StatsX.Model.Stats
import StatsX.Model.Call
import StatsX.Model.Hooks
import StatsX.Model.Plugin
import StatsX.Model.Util
import StatsX.Model.Manager
import StatsX.Model.Rules
import StatsX.Spec.Effect
import StatsX.Spec.Step
import StatsX.Spec.Handlers
import StatsX.Spec.Exec
import StatsX.Spec.Round
import StatsX.Spec.Safety
import StatsX.Spec.Ledger
import StatsX.Spec.Share
import StatsX.Spec.Replay
import StatsX.Spec.Reads
import StatsX.Properties.Ledgers
import StatsX.Properties.Breakdown
import StatsX.Properties.Boundary
import StatsX.Properties.Bounds
import StatsX.Properties.Clutch
import StatsX.Properties.KillStreak
import StatsX.Properties.WinShare
import StatsX.Properties.StableRound
import StatsX.Properties.Succession
import StatsX.Properties.LastKill
import StatsX.Properties.DoubleEntry
import StatsX.Properties.BombLife
import StatsX.Properties.Applied
import StatsX.Properties.Attach
import StatsX.Properties.Renaming
import StatsX.Properties.Assists
import StatsX.Properties.Results
import StatsX.Properties.SelfDamage
import StatsX.Properties.Thrown
import StatsX.Properties.Order
import StatsX.Properties.Messages
import StatsX.Properties.AliveCount
import StatsX.Properties.Replay
import StatsX.Properties.Counts
import StatsX.Properties.Consistency
import StatsX.Properties.Isolation
import StatsX.Properties.Traces
import StatsX.Properties.Merge
import StatsX.Properties.ShareTotals
import StatsX.Properties.Games
import StatsX.Properties.Switch
import StatsX.Properties.Broadcast
import StatsX.Properties.Rules
import StatsX.Properties.Console
