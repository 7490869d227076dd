import McpSurfaces.EventLedger.Append
import McpSurfaces.EventLedger.Atomicity
import McpSurfaces.EventLedger.History
import McpSurfaces.Filesystem.Batch
import McpSurfaces.Filesystem.Outcome
import McpSurfaces.Filesystem.Untouched
import McpSurfaces.Filesystem.WriteCalls
import McpSurfaces.Json.Reread
import McpSurfaces.LedgerDomain.CursorToken
import McpSurfaces.LedgerDomain.Keys
import McpSurfaces.LedgerDomain.Lifecycle
import McpSurfaces.LedgerDomain.Migration
import McpSurfaces.LedgerDomain.Refold
import McpSurfaces.LedgerDomain.QueryCursor
import McpSurfaces.LedgerDomain.RecordFiles
import McpSurfaces.LedgerDomain.TeamWork
import McpSurfaces.LedgerDomain.FrontierPages
import McpSurfaces.LedgerDomain.Retry
import McpSurfaces.LedgerDomain.Rows
import McpSurfaces.Query.Adequacy
import McpSurfaces.Query.Lookup
import McpSurfaces.Query.Paging
import McpSurfaces.Query.Reachability
import McpSurfaces.Query.Shape
import McpSurfaces.Scheduler.Attempts
import McpSurfaces.Scheduler.Exclusion
import McpSurfaces.Scheduler.Pausing
import McpSurfaces.Sop.Leases
import McpSurfaces.Sop.Delivery
import McpSurfaces.Scheduler.Owed
import McpSurfaces.Mailbox.Convergence
import McpSurfaces.Mailbox.Views
import McpSurfaces.TaskLifecycle.Transitions
import McpSurfaces.TaskLifecycle.Closings
import McpSurfaces.TaskLifecycle.Agreement
import McpSurfaces.WorkLifecycle.Correlation
import McpSurfaces.WorkLifecycle.EventLog
import McpSurfaces.WorkLifecycle.Dispositions
import McpSurfaces.WorkLifecycle.Truth
import McpSurfaces.WorkLifecycle.Consumers
import McpSurfaces.Executability.Overrides
import McpSurfaces.Executability.Standing
import McpSurfaces.DelegatedTask.Workers
import McpSurfaces.DelegatedTask.Recovery
import McpSurfaces.DelegatedTask.Finished
import McpSurfaces.DelegatedTask.Authority
import McpSurfaces.DelegatedTask.Progress
import McpSurfaces.Filesystem.ReadPaging
import McpSurfaces.Filesystem.Metrics
import McpSurfaces.Filesystem.SearchResults
import McpSurfaces.Sop.Completions
import McpSurfaces.Mailbox.Facts
import McpSurfaces.Scheduler.Delays
import McpSurfaces.Filesystem.ReplaceRange
import McpSurfaces.Filesystem.SearchSnapshots
import McpSurfaces.Mailbox.SyncLock
import McpSurfaces.TaskLifecycle.ExecutionBinding
import McpSurfaces.TaskLifecycle.Durable
