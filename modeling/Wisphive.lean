import Wisphive.Proofs.QueueOperations
import Wisphive.Foundation.Table
import Wisphive.Proofs.TerminalAttach
import Wisphive.Redact
import Wisphive.EventIngest
import Wisphive.CommandHandler
import Wisphive.DaemonRuns
import Wisphive.Proofs.AuditLog
import Wisphive.Proofs.Footprints
import Wisphive.Proofs.SudoApprovals
import Wisphive.Foundation.Rules
import Wisphive.Proofs.CommandRules
import Wisphive.Proofs.RequestRecords
import Wisphive.Proofs.SudoFreshness
import Wisphive.AgentReaping
import Wisphive.Proofs.ConfigLoading
import Wisphive.ConfigWatch
import Wisphive.PendingRecovery
import Wisphive.Proofs.AgentReaping
import Wisphive.Proofs.HookPolicy
import Wisphive.Proofs.PendingRecovery
import Wisphive.Proofs.PolicyEdits
import Wisphive.Proofs.PolicyWidening
import Wisphive.Proofs.TerminalBarrier
import Wisphive.Proofs.ToolResults
import Wisphive.Proofs.Retention
import Wisphive.EventFiles
import Wisphive.EventTail
import Wisphive.Proofs.EventFiles
import Wisphive.Proofs.EventTail
import Wisphive.Proofs.Restarts
import Wisphive.Proofs.DenialRuns
import Wisphive.Proofs.PasskeyCounters
import Wisphive.Proofs.Revocation
import Wisphive.Proofs.TerminalRespawn
import Wisphive.Proofs.BulkDecisions
import Wisphive.Proofs.ClientFeed
import Wisphive.ConfigUpdates
import Wisphive.Proofs.CliView
import Wisphive.Proofs.LoginThrottle
import Wisphive.Proofs.AuditFeed
import Wisphive.Proofs.CodexAudit
import Wisphive.Proofs.HistorySearch
import Wisphive.Proofs.ProcessRegistry
import Wisphive.Proofs.TerminalDelivery
import Wisphive.Proofs.ClientWire
import Wisphive.Proofs.SpawnCompensation
import Wisphive.Proofs.Attribution
import Wisphive.Proofs.Porcelain
import Wisphive.Proofs.LogSafe
import Wisphive.Proofs.Assignments
import Wisphive.Proofs.LineFraming
import Wisphive.Proofs.BrickDetector
import Wisphive.Proofs.ControlPlane
import Wisphive.Proofs.CodexSnapshot
import Wisphive.Proofs.RateLimiter
import Wisphive.Proofs.TerminalEdits
import Wisphive.Proofs.TerminalEvents
import Wisphive.Proofs.TerminalEnv
import Wisphive.Proofs.AgentLabels
import Wisphive.Proofs.Pruning
import Wisphive.Proofs.TerminalEpochs
import Wisphive.Proofs.AlwaysAllow
import Wisphive.Proofs.RequestDialogs
import Wisphive.Proofs.MergePatch
import Wisphive.Proofs.HookMatcher
import Wisphive.HookInstall
import Wisphive.Proofs.HookInstall
import Wisphive.Proofs.TypedUpdate
import Wisphive.Proofs.SudoRetry
import Wisphive.Proofs.CodexVersions
import Wisphive.Proofs.ConfigView
import Wisphive.Proofs.SpawnArgv
import Wisphive.BrickDetector
import Wisphive.Foundation.Grouping
import Wisphive.PageTypes
import Wisphive.BurnMeter
import Wisphive.Proofs.BurnMeter
import Wisphive.Foundation.Shell
import Wisphive.Proofs.CommitDetection
import Wisphive.Foundation.Arrangement
import Wisphive.Liveness
import Wisphive.Proofs.Liveness
import Wisphive.Proofs.LivenessOrder
import Wisphive.Proofs.LivenessBoard
import Wisphive.Foundation.Sql
import Wisphive.Migration
import Wisphive.Proofs.Migration
import Wisphive.Foundation.Growth
import Wisphive.Proofs.StoreRuns
import Wisphive.HookOutput
import Wisphive.Proofs.HookOutput
import Wisphive.Proofs.HookLog
import Wisphive.Proofs.HookRun
import Wisphive.Foundation.Ledger
import Wisphive.Foundation.Sections
import Wisphive.Proofs.ConfigTransactions
import Wisphive.TlsMaterial
import Wisphive.Proofs.TlsMaterial
