import Zhongzhuan.Kit.Schedule
import Zhongzhuan.Kit.Lifecycle
import Zhongzhuan.Kit.Utf8
import Zhongzhuan.Kit.Lines
import Zhongzhuan.Kit.Loans
import Zhongzhuan.Kit.Buckets
import Zhongzhuan.Kit.Caps
import Zhongzhuan.Kit.Runs
import Zhongzhuan.Kit.SmoothRounds
import Zhongzhuan.Kit.WakeUp
import Zhongzhuan.Kit.Text
import Zhongzhuan.Kit.Transactions
import Zhongzhuan.Kit.Segments
import Zhongzhuan.Kit.Appearance
import Zhongzhuan.Kit.Attempts
import Zhongzhuan.Kit.Dict
import Zhongzhuan.Kit.Json
import Zhongzhuan.Kit.JsonText
import Zhongzhuan.Kit.JsonDoc
import Zhongzhuan.Kit.JsonLoads
import Zhongzhuan.Kit.Fields
import Zhongzhuan.Kit.Grouping
import Zhongzhuan.Kit.Sort
import Zhongzhuan.Kit.PyFloat
import Zhongzhuan.Kit.Retry
import Zhongzhuan.Kit.Journal
import Zhongzhuan.Kit.Noninterference
import Zhongzhuan.Kit.Paging
import Zhongzhuan.Kit.Rounds
import Zhongzhuan.Kit.WeakLocks
import Zhongzhuan.Kit.ItemStream
import Zhongzhuan.Kit.Separated
import Zhongzhuan.Kit.Translator
import Zhongzhuan.Kit.Batches
import Zhongzhuan.Kit.Collected
import Zhongzhuan.Kit.StrLines
import Zhongzhuan.Kit.JsonPhase
import Zhongzhuan.Store.BackgroundJobs
import Zhongzhuan.Store.JobTerminal
import Zhongzhuan.Store.JobLease
import Zhongzhuan.Store.SqliteStore
import Zhongzhuan.Store.WorkerLoop
import Zhongzhuan.Store.StatementRetry
import Zhongzhuan.Store.TiDBStore
import Zhongzhuan.Store.ResponseTables
import Zhongzhuan.Store.EventLog
import Zhongzhuan.Store.AppendRace
import Zhongzhuan.Store.IdempotencyStore
import Zhongzhuan.Store.ToolExecutions
import Zhongzhuan.Protocol.Models
import Zhongzhuan.Protocol.SseParser
import Zhongzhuan.Protocol.SseDelivery
import Zhongzhuan.Protocol.SseBlock
import Zhongzhuan.Protocol.SseSafety
import Zhongzhuan.Protocol.SseArrival
import Zhongzhuan.Protocol.SseReference
import Zhongzhuan.Protocol.SseOversize
import Zhongzhuan.Protocol.SseRoundTrip
import Zhongzhuan.Protocol.ToolAccumulator
import Zhongzhuan.Protocol.ItemRegistry
import Zhongzhuan.Protocol.ResponsesEmitter
import Zhongzhuan.Protocol.EmitterLaw
import Zhongzhuan.Protocol.StreamO2A
import Zhongzhuan.Protocol.AnthropicStream
import Zhongzhuan.Protocol.BlockContent
import Zhongzhuan.Protocol.StreamA2O
import Zhongzhuan.Protocol.OpenAIStream
import Zhongzhuan.Protocol.Segmentation
import Zhongzhuan.Protocol.FinalUsage
import Zhongzhuan.Protocol.FlatTools
import Zhongzhuan.Protocol.TurnBridge
import Zhongzhuan.Protocol.AnswerText
import Zhongzhuan.Protocol.TurnWire
import Zhongzhuan.Protocol.TurnLaw
import Zhongzhuan.Protocol.TurnStream
import Zhongzhuan.Responses.Lifecycle
import Zhongzhuan.Responses.CancelTerminal
import Zhongzhuan.Responses.Events
import Zhongzhuan.Responses.ArgsPatch
import Zhongzhuan.Responses.MultiAgent
import Zhongzhuan.Responses.Pipeline
import Zhongzhuan.Responses.ChunkAdapter
import Zhongzhuan.Responses.CallFragments
import Zhongzhuan.Responses.StreamShape
import Zhongzhuan.Responses.StreamCalls
import Zhongzhuan.Responses.WellFormedStream
import Zhongzhuan.Responses.SpecialCalls
import Zhongzhuan.Responses.SpecialDeltas
import Zhongzhuan.Responses.Prose
import Zhongzhuan.Responses.Reuse
import Zhongzhuan.Responses.ChatSignals
import Zhongzhuan.Responses.CompletionSignals
import Zhongzhuan.Responses.HonestTerminal
import Zhongzhuan.Responses.CallReports
import Zhongzhuan.Responses.AdapterImage
import Zhongzhuan.Responses.NativeCalls
import Zhongzhuan.Responses.CallLedger
import Zhongzhuan.Responses.CallStatus
import Zhongzhuan.Responses.Budget
import Zhongzhuan.Responses.JobRun
import Zhongzhuan.Responses.StoredResponse
import Zhongzhuan.Responses.JobEnd
import Zhongzhuan.Responses.ItemRows
import Zhongzhuan.Responses.JobHistory
import Zhongzhuan.Responses.ReasoningRows
import Zhongzhuan.Responses.JobMirror
import Zhongzhuan.Responses.JobOutput
import Zhongzhuan.Responses.ChainResolver
import Zhongzhuan.Responses.ChainHistory
import Zhongzhuan.Responses.ChainRecovery
import Zhongzhuan.Responses.Resources
import Zhongzhuan.Responses.McpConfig
import Zhongzhuan.Responses.McpLease
import Zhongzhuan.Responses.McpApproval
import Zhongzhuan.Responses.Catchup
import Zhongzhuan.Proxy.KeyHealth
import Zhongzhuan.Proxy.InvalidKeys
import Zhongzhuan.Proxy.Cooldown
import Zhongzhuan.Proxy.DailyLimit
import Zhongzhuan.Proxy.ReloadKeys
import Zhongzhuan.Proxy.HealthSnapshot
import Zhongzhuan.Proxy.Sessions
import Zhongzhuan.Proxy.SessionIsolation
import Zhongzhuan.Proxy.RetryKey
import Zhongzhuan.Proxy.CreateStream
import Zhongzhuan.Proxy.KeySwitch
import Zhongzhuan.Proxy.CreateNonstream
import Zhongzhuan.Proxy.CreateRow
import Zhongzhuan.Proxy.EmptyAnswers
import Zhongzhuan.Proxy.UpstreamBody
import Zhongzhuan.Proxy.SharedBody
import Zhongzhuan.Proxy.Failover
import Zhongzhuan.Proxy.Degraded
import Zhongzhuan.Proxy.SoftFailures
import Zhongzhuan.Proxy.DeferredEvents
import Zhongzhuan.Proxy.HeldStream
import Zhongzhuan.Proxy.HeldLoop
import Zhongzhuan.Proxy.PassedExactly
import Zhongzhuan.Proxy.StreamVerdict
import Zhongzhuan.Responses.ChatMessage
import Zhongzhuan.Responses.FiledCalls
import Zhongzhuan.Responses.NotedParts
import Zhongzhuan.Responses.ClosedParts
import Zhongzhuan.Responses.BothDeliveries
import Zhongzhuan.Responses.CapabilityRouter
import Zhongzhuan.Store.AccessTokens
import Zhongzhuan.Proxy.InstanceLock
import Zhongzhuan.Store.Retention
import Zhongzhuan.Store.MigrationEngine
import Zhongzhuan.Store.MigrationRestart
import Zhongzhuan.Store.ConnectionPool
import Zhongzhuan.Protocol.CallPairing
import Zhongzhuan.Protocol.TranslateRequest
import Zhongzhuan.Protocol.MergedMessages
import Zhongzhuan.Protocol.RequestTrip
import Zhongzhuan.Proxy.ConcurrencyGate
import Zhongzhuan.Responses.IdleWait
import Zhongzhuan.Proxy.WindowUsage
import Zhongzhuan.Proxy.GroupScheduling
import Zhongzhuan.Proxy.RoundRobin
import Zhongzhuan.Proxy.SwapModelName
import Zhongzhuan.Proxy.SwappedBody
import Zhongzhuan.Proxy.StreamTokens
import Zhongzhuan.Responses.Orchestrator
import Zhongzhuan.Responses.ItemPages
import Zhongzhuan.Store.RequestLogs
import Zhongzhuan.Proxy.LearnedLimits
import Zhongzhuan.Responses.PatchedMessage
import Zhongzhuan.Protocol.CallInterleaving
import Zhongzhuan.Responses.ToolTerminators
import Zhongzhuan.Protocol.RaisingEmitter
import Zhongzhuan.Responses.CircuitBreaker
import Zhongzhuan.Store.UsageStats
import Zhongzhuan.Proxy.FrameContent
import Zhongzhuan.Responses.McpSse
import Zhongzhuan.Responses.Resumption
