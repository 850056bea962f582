import Xerv.Lib.Table
import Xerv.Lib.LittleEndian
import Xerv.Lib.Utf8
import Xerv.Lib.Numeral
import Xerv.Lib.Directory
import Xerv.Lib.BufferedFile
import Xerv.Lib.Crc32
import Xerv.Lib.BlockMove
import Xerv.Lib.SortedMap
import Xerv.Lib.Lines
import Xerv.Core.Types
import Xerv.Wal.Record
import Xerv.Wal.Writer
import Xerv.Wal.Reader
import Xerv.Wal.Replay
import Xerv.Wal.Snapshot
import Xerv.Arena.Allocation
import Xerv.Arena.Compaction
import Xerv.Raft.Segment
import Xerv.Raft.Storage
import Xerv.Raft.Log
import Xerv.Raft.Reload
import Xerv.Raft.Removal
import Xerv.Raft.Durability
import Xerv.Lib.Kahn
import Xerv.Scheduler.Graph
import Xerv.Scheduler.Trace
import Xerv.Scheduler.Executor
import Xerv.Scheduler.Safety
import Xerv.Scheduler.Coherence
import Xerv.Scheduler.Activation
import Xerv.Lib.Dataflow
import Xerv.Loader.Builder
import Xerv.Scheduler.Confluence
import Xerv.Scheduler.Recovery
import Xerv.Lib.Machine
import Xerv.Scheduler.Exits
import Xerv.Scheduler.ActiveTraces
import Xerv.Wal.TornTail
import Xerv.Wal.GroupCommit
import Xerv.Scheduler.Suspension
import Xerv.Scheduler.Handoff
import Xerv.Wal.Visible
import Xerv.Scheduler.Restore
import Xerv.Wal.TraceLog
import Xerv.Scheduler.Lifecycle
import Xerv.Scheduler.Decisions
import Xerv.Scheduler.Readback
import Xerv.Cluster.State
import Xerv.Cluster.Accounting
import Xerv.Cluster.Ended
import Xerv.Cluster.Snapshot
import Xerv.Dispatch.Memory
import Xerv.Scheduler.Admission
import Xerv.Arena.File
import Xerv.Arena.Crash
import Xerv.Lib.Fallible
import Xerv.Raft.Fallible
import Xerv.Raft.Atomicity
import Xerv.Raft.Journal
import Xerv.Raft.TornAppend
import Xerv.Core.Value
import Xerv.Nodes.Loop
import Xerv.Scheduler.Loops
import Xerv.Dispatch.Raft
import Xerv.Dispatch.Attempts
import Xerv.Dispatch.Redis
import Xerv.Dispatch.Nats
import Xerv.Dispatch.Redelivery
import Xerv.Suspension.Store
import Xerv.Suspension.Timeout
import Xerv.Pipeline.Lifecycle
import Xerv.Pipeline.Runs
import Xerv.Api.Update
import Xerv.Lib.BitFlip
import Xerv.Wal.Damage
import Xerv.Lib.RwLocks
import Xerv.Schema.Registries
import Xerv.Operator.Rollout
import Xerv.Operator.Federated
import Xerv.Operator.Pipeline
import Xerv.Operator.Redeploys
import Xerv.Operator.Honesty
import Xerv.Api.Auth
import Xerv.Api.Router
import Xerv.Api.Traces
import Xerv.Nodes.Restart
import Xerv.Arena.Access
import Xerv.Wal.Decoder
import Xerv.Wal.Rotation
import Xerv.Scheduler.Start
import Xerv.Loader.Validator
import Xerv.Loader.Wiring
import Xerv.Lib.Closure
import Xerv.Loader.Metadata
import Xerv.Loader.Deployment
import Xerv.Lib.RunLimit
import Xerv.Lib.Template
import Xerv.Linker.Parser
import Xerv.Linker.Interpolate
import Xerv.Loader.EdgeReference
import Xerv.Schema.TypeInfo
import Xerv.Linker.Resolver
import Xerv.Lib.BreadthFirst
import Xerv.Schema.Version
import Xerv.Schema.Migration
import Xerv.Schema.MigrationPaths
import Xerv.Schema.MigrationSearch
import Xerv.Schema.MigrationViews
import Xerv.Schema.Compatibility
import Xerv.Schema.Versioned
import Xerv.Schema.VersionHistory
import Xerv.Schema.HashLookup
import Xerv.Schema.Persistence
import Xerv.Schema.RegistryJson
import Xerv.Schema.Recovery
import Xerv.Pipeline.CircuitBreaker
import Xerv.Pipeline.BreakerRace
import Xerv.Pipeline.ErrorRate
import Xerv.Nodes.JsonPaths
import Xerv.Nodes.Map
import Xerv.Nodes.Flatten
import Xerv.Nodes.Switch
import Xerv.Nodes.Conditions
import Xerv.Nodes.JsonDynamic
import Xerv.Nodes.LoopRuns
import Xerv.Operator.Placement
import Xerv.Wasm.Host
import Xerv.Wasm.HostFailures
import Xerv.Wasm.Memory
import Xerv.Wasm.Inputs
import Xerv.Api.Exemption
import Xerv.Api.RateLimit
import Xerv.Logging.Pages
import Xerv.Logging.Cursor
import Xerv.Nodes.PathSecurity
import Xerv.Nodes.Filesystem
import Xerv.Lib.DepthFirst
import Xerv.Lib.LossyText
import Xerv.Lib.UnixPath
import Xerv.Editor.Cycle
import Xerv.Editor.Highlight
import Xerv.Editor.SelectorCheck
import Xerv.Testing.MockClock
import Xerv.Arena.Planning
import Xerv.Arena.Totals
import Xerv.Lib.Utf8Slice
import Xerv.Raft.SegmentNames
import Xerv.Lib.Replay
import Xerv.Cluster.Replicas
import Xerv.Lib.ReplacedFile
import Xerv.Raft.Vote
import Xerv.Lib.Grouping
import Xerv.Raft.OldLog
import Xerv.Operator.Clusters
import Xerv.Operator.ClusterRuns
import Xerv.Operator.ClusterEdits
import Xerv.Lib.PercentText
import Xerv.Api.Client
import Xerv.Api.ClientRequests
import Xerv.Api.ClientAnswers
import Xerv.Api.ClientQuery
import Xerv.Lib.TrimmedDir
import Xerv.Wal.Purge
import Xerv.Wal.SnapshotFiles
