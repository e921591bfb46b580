import Assemblix.Projects.ApiKeys
import Assemblix.Projects.KnowledgeBases
import Assemblix.Projects.DocumentCounters
import Assemblix.Projects.CombinedContent
import Assemblix.Projects.ProjectReferences
import Assemblix.Projects.PublishedVersions
import Assemblix.Projects.WorkflowTable
import Assemblix.Library.Dict
import Assemblix.Library.Run
import Assemblix.Library.DepthFirst
import Assemblix.Library.JsObject
import Assemblix.Library.JsText
import Assemblix.Library.TextStream
import Assemblix.Library.Json
import Assemblix.Library.JsonPath
import Assemblix.Library.JsonHeap
import Assemblix.Library.SeparateWrites
import Assemblix.Library.Confinement
import Assemblix.Library.OperationChain
import Assemblix.Library.Purse
import Assemblix.Library.MonthlySchedule
import Assemblix.Library.SortedSetKey
import Assemblix.Library.TrimmedLog
import Assemblix.Library.CursorReader
import Assemblix.Library.Words
import Assemblix.Library.Worklist
import Assemblix.Library.WordRuns
import Assemblix.Library.FrameReader
import Assemblix.Execution.Workflow
import Assemblix.Execution.DagScheduler
import Assemblix.Execution.GraphNavigator
import Assemblix.Execution.DagSchedulerCascade
import Assemblix.Execution.DeadPropagation
import Assemblix.Execution.DagSchedulerAcyclic
import Assemblix.Execution.DagSchedulerForkFree
import Assemblix.Execution.Context
import Assemblix.Execution.Nodes
import Assemblix.Execution.SetVariableNode
import Assemblix.Execution.SequentialLoop
import Assemblix.Execution.ParallelAccounting
import Assemblix.Execution.ParallelEnds
import Assemblix.Execution.ParallelLoop
import Assemblix.Execution.GraphAnalysis
import Assemblix.Execution.DagSchedulerSingleFile
import Assemblix.Execution.DagSchedulerThreads
import Assemblix.Execution.SingleFileRun
import Assemblix.Execution.Resume
import Assemblix.Execution.StepCosts
import Assemblix.Execution.ResumeBilling
import Assemblix.Execution.EndFilter
import Assemblix.Execution.ForkWrites
import Assemblix.Execution.TreeAssignment
import Assemblix.Execution.AssignmentInPlace
import Assemblix.Execution.StepReconciliation
import Assemblix.Execution.StrictSchema
import Assemblix.Billing.Credits
import Assemblix.Billing.Payments
import Assemblix.Billing.Deduction
import Assemblix.Billing.Balance
import Assemblix.Billing.Ledger
import Assemblix.Billing.Periods
import Assemblix.Billing.ConcurrentGrants
import Assemblix.Billing.CostSummary
import Assemblix.Limits.ConcurrencyLimiter
import Assemblix.Queue.ExecutionQueue
import Assemblix.Queue.QueuedRun
import Assemblix.Sessions.StateVariables
import Assemblix.Sessions.Database
import Assemblix.Sessions.StateUpdates
import Assemblix.Sessions.ExecuteRequest
import Assemblix.Sessions.TenantIsolation
import Assemblix.Sessions.FailedRun
import Assemblix.Sessions.Finalization
import Assemblix.Sessions.TaskResult
import Assemblix.Sessions.AnswerDurability
import Assemblix.Sessions.TranscribedTurn
import Assemblix.Sessions.ClosedSession
import Assemblix.Sessions.FirstContact
import Assemblix.Debug.EventStreams
import Assemblix.Debug.RedisStreamBuffer
import Assemblix.Debug.StreamBuffer
import Assemblix.Realtime.InvisibleSpeculation
import Assemblix.Realtime.SpeechConservation
import Assemblix.Realtime.BrainCalls
import Assemblix.Realtime.SpokenHistory
import Assemblix.Realtime.TurnDetector
import Assemblix.Realtime.TurnFrames
import Assemblix.Realtime.GeminiLiveBridge
import Assemblix.Realtime.HalfCascade
import Assemblix.Realtime.HalfCascadeSessions
import Assemblix.Realtime.BargeIn
import Assemblix.Realtime.HalfCascadeOrder
import Assemblix.Realtime.SpeechBilling
import Assemblix.Realtime.SpeechReport
import Assemblix.Realtime.SpeechTally
import Assemblix.Library.LaneReader
import Assemblix.Library.ListUpdate
import Assemblix.Realtime.OrderedSynthesis
import Assemblix.Realtime.PlaybackOrder
import Assemblix.Realtime.PlaybackCompletion
import Assemblix.Realtime.FinalHook
import Assemblix.Realtime.VoiceSessionService
import Assemblix.Realtime.CallLimit
import Assemblix.Realtime.SessionStatistics
import Assemblix.Editor.ConditionEdges
import Assemblix.Editor.FlowGraph
import Assemblix.Editor.ObjectValues
import Assemblix.Editor.PastedGraph
import Assemblix.Editor.RuntimeState
import Assemblix.Editor.RuntimeStateMerge
import Assemblix.Editor.SchemaBuilder
import Assemblix.Editor.VoiceAgentForm
import Assemblix.Editor.DebugStream
import Assemblix.Execution.AgentNode
import Assemblix.Execution.HttpRequestNode
import Assemblix.Execution.FallbackBilling
import Assemblix.Library.SlidingWindow
import Assemblix.Limits.RateLimitBackends
import Assemblix.Realtime.ShortfallLock
import Assemblix.Library.Coroutine
import Assemblix.Realtime.CallRoute
import Assemblix.Realtime.AvatarCall
import Assemblix.Realtime.AvatarOutput
import Assemblix.Realtime.HeardByAvatar
import Assemblix.Realtime.SpeechFraming
import Assemblix.Realtime.AvatarSession
import Assemblix.Realtime.BridgeClosing
import Assemblix.Realtime.ConversationBilling
import Assemblix.Realtime.SynthesizedReply
import Assemblix.Realtime.Segmenter
import Assemblix.Realtime.SegmentWords
import Assemblix.Library.GraphImage
import Assemblix.Execution.DagSchedulerCopy
import Assemblix.Execution.DagSchedulerGate
import Assemblix.Execution.PrunedGraph
import Assemblix.Library.DirectedCycle
import Assemblix.Library.StrongComponents
import Assemblix.Execution.JoinInLoop
import Assemblix.Execution.Templates
import Assemblix.Debug.EditorRun
import Assemblix.Realtime.YandexStt
