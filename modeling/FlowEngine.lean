import FlowEngine.Lib.Transition
import FlowEngine.Lib.Program
import FlowEngine.Lib.Digraph
import FlowEngine.Lib.Oneshot
import FlowEngine.Lib.Mpsc
import FlowEngine.Lib.Fallible
import FlowEngine.Lib.KeyedLog
import FlowEngine.Lib.Lines
import FlowEngine.Lib.Dataflow.Order
import FlowEngine.Lib.Dataflow.Legal
import FlowEngine.Lib.Dataflow.Confluence
import FlowEngine.Lib.Dataflow.Agreement
import FlowEngine.Json
import FlowEngine.Types
import FlowEngine.WriteEvent
import FlowEngine.Expression
import FlowEngine.Executor.Graph
import FlowEngine.Validate
import FlowEngine.Executor.State
import FlowEngine.Executor.Edges
import FlowEngine.Executor.Fanout
import FlowEngine.Executor.Node
import FlowEngine.Executor.Run
import FlowEngine.Executor.Spawn
import FlowEngine.Executor.Evaluate
import FlowEngine.Executor.Step
import FlowEngine.Executor.Runs
import FlowEngine.Executor.Ready
import FlowEngine.Executor.Phases
import FlowEngine.Executor.Ledger
import FlowEngine.Executor.FanIn.Reports
import FlowEngine.Executor.FanIn.Invariant
import FlowEngine.Executor.FanIn.Steps
import FlowEngine.Executor.FanIn.Exact
import FlowEngine.Executor.Bookkeeping
import FlowEngine.Executor.Started
import FlowEngine.Executor.BackEdges
import FlowEngine.Executor.Joins
import FlowEngine.Executor.Termination
import FlowEngine.Executor.Cancel
import FlowEngine.Executor.Dag.Net
import FlowEngine.Executor.Dag.Refinement
import FlowEngine.Executor.Dag.Start
import FlowEngine.Executor.Dag.Steps
import FlowEngine.Executor.Dag.Once
import FlowEngine.Executor.Dag.Exact
import FlowEngine.Executor.Dag.Functional
import FlowEngine.Executor.Dag.Tracks
import FlowEngine.Executor.Dag.Timing
import FlowEngine.Executor.Dag.Independence
import FlowEngine.Executor.Dag.JoinFanOut
import FlowEngine.Executor.Dag.Branches
import FlowEngine.Executor.Dag.Status
import FlowEngine.Engine.Triggers
import FlowEngine.Engine.Cancellation
import FlowEngine.Pipeline.Redact
import FlowEngine.Pipeline.State
import FlowEngine.Pipeline.Custody
import FlowEngine.Pipeline.Sound
import FlowEngine.Pipeline.Runs
import FlowEngine.Pipeline.Numbering
import FlowEngine.Pipeline.Lossless
import FlowEngine.Pipeline.InOrder
import FlowEngine.Pipeline.Secrecy
import FlowEngine.Runtime.Session
import FlowEngine.Stores.Records
import FlowEngine.Stores.Reconstruct
import FlowEngine.Stores.RunStore
import FlowEngine.Stores.InMemory
import FlowEngine.Stores.File
import FlowEngine.Stores.SeaOrm
import FlowEngine.Stores.Contents
import FlowEngine.Stores.Laws.InMemory
import FlowEngine.Stores.Laws.File
import FlowEngine.Stores.Laws.SeaOrm
import FlowEngine.Stores.Agreement
import FlowEngine.Stores.Recovery
import FlowEngine.Versioning.FlowStore
import FlowEngine.Versioning.Stores
import FlowEngine.Versioning.Laws
import FlowEngine.Versioning.Heads
import FlowEngine.Versioning.Current
import FlowEngine.Engine.Dispatch
import FlowEngine.Engine.Idempotency
import FlowEngine.Executor.Ends
import FlowEngine.Executor.Provenance
import FlowEngine.Executor.Traversals
import FlowEngine.Executor.Quiescence
import FlowEngine.Executor.Tasks.Machine
import FlowEngine.Executor.Tasks.Scripts
import FlowEngine.Executor.Tasks.Records
import FlowEngine.Executor.Tasks.Causality
import FlowEngine.Executor.Tasks.Sequential
import FlowEngine.Executor.Tasks.Overrun
import FlowEngine.Executor.Tasks.Outcomes
import FlowEngine.Stores.NodeResults
import FlowEngine.Stores.NodeStatus
import FlowEngine.Engine.HumanInput
import FlowEngine.Engine.Waiters
import FlowEngine.Executor.LlmCalls
import FlowEngine.Adapters.Session
import FlowEngine.Adapters.Calls
import FlowEngine.Pipeline.Reach
import FlowEngine.Runtime.Life
import FlowEngine.Lib.Polling
import FlowEngine.Lib.Utf8
import FlowEngine.Providers.Stream
import FlowEngine.Providers.Chunking
import FlowEngine.Executor.Search
import FlowEngine.Executor.Trace
import FlowEngine.Executor.Summary
import FlowEngine.Executor.Tasks.Ending
import FlowEngine.Executor.Tasks.StoredSummary
import FlowEngine.Stores.Queries
import FlowEngine.Lib.Faults
import FlowEngine.Stores.Operations
import FlowEngine.Stores.Atomic
import FlowEngine.Executor.FailurePath
import FlowEngine.Pipeline.Ordered
import FlowEngine.Executor.Tasks.Alternation
import FlowEngine.Stores.NodeDetail
import FlowEngine.Stores.Attribution
import FlowEngine.Stores.DetailAgreement
import FlowEngine.Lib.Grammar
import FlowEngine.Expression.Grammar
import FlowEngine.Expression.Lexemes
import FlowEngine.Expression.Missing
import FlowEngine.Json.Ordered
import FlowEngine.Versioning.ConfigHash
import FlowEngine.Nodes.LlmCall
import FlowEngine.Lib.Collect
import FlowEngine.Nodes.Queries
import FlowEngine.Providers.Gemini
import FlowEngine.Pipeline.Holdings
import FlowEngine.Pipeline.Masking
import FlowEngine.Pipeline.Survival
import FlowEngine.Lib.Settling
import FlowEngine.Pipeline.Idempotence
import FlowEngine.Executor.Tasks.Own
import FlowEngine.Pipeline.Once
import FlowEngine.Runtime.Recorded
import FlowEngine.Runtime.Delivered
import FlowEngine.Runtime.Persisted
import FlowEngine.Runtime.Reported
import FlowEngine.Lib.Broadcast
import FlowEngine.Lib.Fleet
import FlowEngine.Engine.Completions
import FlowEngine.Engine.Queue
import FlowEngine.Lib.Register
import FlowEngine.Engine.StateStore
import FlowEngine.Nodes.Conversation
import FlowEngine.Stores.Tags
import FlowEngine.Stores.Laws.Tags
import FlowEngine.Lib.Interleaving
import FlowEngine.Runtime.Watched
import FlowEngine.Runtime.Streamed
import FlowEngine.Lib.Fairness
import FlowEngine.Executor.Tasks.Progress
import FlowEngine.Pipeline.Drain
import FlowEngine.Runtime.Progress
import FlowEngine.Runtime.Complete
