import Acps.Lib.Transition
import Acps.Lib.Paging
import Acps.Lib.LastWriter
import Acps.Lib.ReadCommitted
import Acps.Lib.Replay
import Acps.Lib.SortedSet
import Acps.Lib.Stream
import Acps.Lib.Json
import Acps.Dsp.Envelope
import Acps.Discovery.State
import Acps.Discovery.ApplySteps
import Acps.Discovery.ConcurrentApply
import Acps.Discovery.SyncOnce
import Acps.Discovery.LostChange
import Acps.Discovery.ConcurrentSync
import Acps.Discovery.ApplyOrder
import Acps.Registry.ChangeLog
import Acps.Registry.Feed
import Acps.Registry.FeedTransactions
import Acps.Registry.Agent
import Acps.Registry.History
import Acps.Registry.Published
import Acps.Registry.Snapshot
import Acps.Registry.SnapshotChunks
import Acps.Registry.ChangeWebhooks
import Acps.Dsp.AgentTransactions
import Acps.Dsp.Sync
import Acps.Dsp.Bootstrap
import Acps.Dsp.IncrementalSnapshot
import Acps.Aic.Agreement
import Acps.Registry.Ontology
import Acps.Heartbeat.Shard
import Acps.Heartbeat.Reconciler
import Acps.Heartbeat.Relay
import Acps.Heartbeat.RelayMark
import Acps.AliveSync.Handover
import Acps.Heartbeat.SnapshotConverges
import Acps.Heartbeat.SnapshotOnce
import Acps.Mq.Authz
import Acps.Ca.StatusAnswers
import Acps.Ca.RevocationList
import Acps.Ca.Nonces
import Acps.Ca.OrderIssuance
import Acps.Ca.AccountBinding
import Acps.Ca.IssuanceSafety
import Acps.Ca.Versions
import Acps.Lib.Sorter
import Acps.Ca.Lookup
import Acps.Lib.Base64
import Acps.Ca.KeyIdentity
import Acps.Mq.Revocation
import Acps.Audit.Verify
import Acps.Audit.ScopedQueries
import Acps.Audit.RecordPages
import Acps.Monitor.Scope
import Acps.Monitor.Honoured
import Acps.Lib.Binary64
import Acps.Lib.Keyset
import Acps.Monitor.Sorts
import Acps.Aic.ErrorDetection
import Acps.Aic.Derivation
import Acps.Heartbeat.ShardNames
import Acps.Heartbeat.Analytics
import Acps.Heartbeat.LivenessCursor
import Acps.Heartbeat.LivenessQuery
import Acps.Heartbeat.LivenessPages
import Acps.Monitor.EventPages
import Acps.Monitor.AggregatePages
import Acps.Intake.Freshness
import Acps.Message.Compaction
import Acps.Access.TraceSummaries
import Acps.Message.Throughput
import Acps.Partner.Conformance
import Acps.Sse.Resume
import Acps.Group.Pending
import Acps.Group.Membership
import Acps.Group.Isolation
import Acps.Sse.Wire
import Acps.Partner.TrueHistory
import Acps.Partner.OnlyLeader
import Acps.Partner.TaskIsolation
import Acps.Partner.Bounds
import Acps.Assistant.TaskEnds
import Acps.Assistant.Idempotence
import Acps.Assistant.StreamEventBus
import Acps.Assistant.Transports
import Acps.Assistant.SessionManager
import Acps.Adp.Forwarding
import Acps.Discovery.SkillIndex
import Acps.Discovery.Ranking
import Acps.Discovery.EmbeddingQueue
import Acps.Account.OneAction
import Acps.Account.TokenRuns
import Acps.Assistant.Products
import Acps.Aip.Notifications
import Acps.Aip.RpcServer
import Acps.Aip.IncrementalGet
import Acps.Metrics.NothingLost
import Acps.Metrics.RemoteWrite
import Acps.Assistant.PlanCandidates
import Acps.Assistant.PlannedStarts
import Acps.Assistant.HistoryCompression
import Acps.Assistant.InvitedCache
import Acps.Lib.PyValue
import Acps.Assistant.Conjunction
import Acps.Lib.Binary64
import Acps.Lib.Keyset
