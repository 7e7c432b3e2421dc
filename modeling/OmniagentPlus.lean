import OmniagentPlus.Foundation.Transition
import OmniagentPlus.Foundation.Dictionary
import OmniagentPlus.Foundation.Text
import OmniagentPlus.CoreContracts.CoordinationContract
import OmniagentPlus.StateLedger.FilesystemLock
import OmniagentPlus.StateLedger.CoordinationPage
import OmniagentPlus.WorktreeLeasing.LeaseScope
import OmniagentPlus.WorktreeLeasing.LeaseStore
import OmniagentPlus.WorktreeLeasing.LeaseExclusion
import OmniagentPlus.CoreContracts.Worktree
import OmniagentPlus.CoreContracts.StateLedger
import OmniagentPlus.Foundation.Saturation
import OmniagentPlus.StateLedger.Retention
import OmniagentPlus.StateLedger.RetentionClosure
import OmniagentPlus.StateLedger.Replay
import OmniagentPlus.StateLedger.RetentionReplay
import OmniagentPlus.StateLedger.SnapshotFold
import OmniagentPlus.StateLedger.RetentionSnapshot
import OmniagentPlus.Foundation.Durable
import OmniagentPlus.StateLedger.LedgerSnapshot
import OmniagentPlus.StateLedger.AppendOnlyStore
import OmniagentPlus.StateLedger.LedgerDurability
import OmniagentPlus.WorktreeLeasing.BranchPolicy
import OmniagentPlus.WorktreeLeasing.LeaseRegistry
import OmniagentPlus.WorktreeLeasing.LeasePath
import OmniagentPlus.WorktreeLeasing.LeaseManager
import OmniagentPlus.WorktreeLeasing.LeaseJournal
import OmniagentPlus.WorktreeLeasing.LeaseReclamation
import OmniagentPlus.WorktreeLeasing.LeaseSimulation
import OmniagentPlus.WorktreeLeasing.LeaseOperations
import OmniagentPlus.WorktreeLeasing.LeaseMutualExclusion
import OmniagentPlus.WorktreeLeasing.LeaseLifecycle
import OmniagentPlus.WorktreeLeasing.LeaseContinuation
import OmniagentPlus.WorktreeLeasing.LeaseRetention
import OmniagentPlus.WorktreeLeasing.LeasePublication
import OmniagentPlus.WorktreeLeasing.CoordinationTables
import OmniagentPlus.WorktreeLeasing.SupabaseLeaseStore
import OmniagentPlus.WorktreeLeasing.LiveLeases
import OmniagentPlus.WorktreeLeasing.LeasePage
import OmniagentPlus.WorktreeLeasing.SupabaseLive
import OmniagentPlus.WorktreeLeasing.LeaseBackends
import OmniagentPlus.WorktreeLeasing.LeaseRefusals
import OmniagentPlus.CoreContracts.RuntimeEvents
import OmniagentPlus.OmnigentTransport.EventMapper
import OmniagentPlus.OmnigentTransport.HistoryMapper
import OmniagentPlus.Foundation.Emission
import OmniagentPlus.OmnigentTransport.TurnLifecycle
import OmniagentPlus.OmnigentTransport.HistoryLifecycle
import OmniagentPlus.OmnigentTransport.TextReplay
import OmniagentPlus.OmnigentTransport.ReconnectText
import OmniagentPlus.Foundation.JsonParse
import OmniagentPlus.Foundation.Delimited
import OmniagentPlus.Foundation.Utf8
import OmniagentPlus.OmnigentTransport.SseNormalizer
import OmniagentPlus.OmnigentTransport.SseStream
import OmniagentPlus.WorktreeLeasing.LeaseCleanup
import OmniagentPlus.WorktreeLeasing.LeaseCleanupSafety
import OmniagentPlus.OmnigentTransport.HistoryReplay
import OmniagentPlus.OmnigentTransport.DeliveredText
import OmniagentPlus.OmnigentTransport.EventNumbering
import OmniagentPlus.OmnigentTransport.NormalizerCalls
import OmniagentPlus.OmnigentTransport.ResponseBinding
import OmniagentPlus.OmnigentTransport.TurnAttribution
import OmniagentPlus.Foundation.JsValue
import OmniagentPlus.Foundation.Regex
import OmniagentPlus.CoreContracts.Redaction
import OmniagentPlus.CoreContracts.CoordinationMessage
import OmniagentPlus.StateLedger.CoordinationChannel
import OmniagentPlus.StateLedger.CoordinationInbox
import OmniagentPlus.WorktreeLeasing.InboxScopes
import OmniagentPlus.Foundation.PageWalk
import OmniagentPlus.StateLedger.InboxPages
import OmniagentPlus.WorktreeLeasing.ActiveLeasePages
import OmniagentPlus.Foundation.EventLog
import OmniagentPlus.WorktreeLeasing.LeaseHistory
import OmniagentPlus.Coordinator.IdentityPool
import OmniagentPlus.Coordinator.RoutePlanner
import OmniagentPlus.Coordinator.RouteSafety
import OmniagentPlus.OmnigentTransport.ProviderState
import OmniagentPlus.Foundation.Process
import OmniagentPlus.OmnigentTransport.TurnBooks
import OmniagentPlus.OmnigentTransport.SessionBooks
import OmniagentPlus.OmnigentTransport.ProviderSegments
import OmniagentPlus.OmnigentTransport.ProviderOperations
import OmniagentPlus.OmnigentTransport.ProviderControls
import OmniagentPlus.OmnigentTransport.ProviderStream
import OmniagentPlus.OmnigentTransport.ProviderSystem
import OmniagentPlus.OmnigentTransport.SegmentsApart
import OmniagentPlus.OmnigentTransport.FenceLeases
import OmniagentPlus.OmnigentTransport.ClosedSession
import OmniagentPlus.StateLedger.RetentionIdempotence
import OmniagentPlus.CoreContracts.FakeEventStream
import OmniagentPlus.CoreContracts.FakeProvider
import OmniagentPlus.CoreContracts.FakeLifecycle
import OmniagentPlus.CoreContracts.FakeRuns
import OmniagentPlus.StateLedger.RejectedOperations
import OmniagentPlus.StateLedger.LedgerCapacity
import OmniagentPlus.StateLedger.CoordinationStore
import OmniagentPlus.StateLedger.ExclusiveLeases
import OmniagentPlus.StateLedger.CooldownAtomicity
import OmniagentPlus.OmnigentTransport.TurnRegistration
import OmniagentPlus.OmnigentTransport.SendRollback
import OmniagentPlus.Foundation.JsonExtension
import OmniagentPlus.Foundation.JsonNumber
import OmniagentPlus.StateLedger.TruncatedTail
import OmniagentPlus.CoreContracts.TurnReducer
import OmniagentPlus.Coordinator.ActiveTurns
import OmniagentPlus.StateLedger.SnapshotApprovals
import OmniagentPlus.StateLedger.SnapshotTree
import OmniagentPlus.Foundation.PosixPath
import OmniagentPlus.CoreContracts.MetadataPath
import OmniagentPlus.Foundation.RegexSegments
import OmniagentPlus.CoreContracts.MetadataLayout
import OmniagentPlus.CoreContracts.HandoffPacket
import OmniagentPlus.CoreContracts.HandoffStability
import OmniagentPlus.CoreContracts.HandoffRenderer
import OmniagentPlus.Cli.RouteTask
import OmniagentPlus.WorktreeLeasing.GrantedScopes
import OmniagentPlus.OmnigentTransport.TextGroups
import OmniagentPlus.OmnigentTransport.TrimmedHistory
import OmniagentPlus.OmnigentTransport.MessageStream
import OmniagentPlus.Foundation.JsonRoundTrip
import OmniagentPlus.StateLedger.LedgerBytes
import OmniagentPlus.OmnigentTransport.MatchedHistory
import OmniagentPlus.OmnigentTransport.HistoryPages
import OmniagentPlus.OmnigentTransport.BooksApart
import OmniagentPlus.OmnigentTransport.SegmentsApart
import OmniagentPlus.OmnigentTransport.SessionIsolation
import OmniagentPlus.OmnigentTransport.FencedFleet
import OmniagentPlus.OmnigentTransport.FleetRules
import OmniagentPlus.OmnigentTransport.FleetCalls
import OmniagentPlus.OmnigentTransport.FencedSessions
import OmniagentPlus.WorktreeLeasing.InboxBackends
import OmniagentPlus.Foundation.MovingPages
import OmniagentPlus.OmnigentTransport.HttpClient
import OmniagentPlus.OmnigentTransport.PagedLists
import OmniagentPlus.Coordinator.ArbitratedLaunches
import OmniagentPlus.StateLedger.LedgerAcknowledgements
import OmniagentPlus.Coordinator.LaunchGate
import OmniagentPlus.Coordinator.RecordedLaunches
import OmniagentPlus.WorktreeLeasing.LockBackend
import OmniagentPlus.Coordinator.FailurePolicy
import OmniagentPlus.Coordinator.RoutingReplay
import OmniagentPlus.IdentityIsolation.IsolationPolicy
import OmniagentPlus.IdentityIsolation.Preflight
import OmniagentPlus.Cli.RoutedTask
