import Lobu.Foundation.Machine
import Lobu.Foundation.Table
import Lobu.Foundation.Text
import Lobu.Foundation.Json
import Lobu.Queue.Run
import Lobu.Queue.Consumer
import Lobu.Queue.Claims
import Lobu.Queue.Fencing
import Lobu.Queue.RetryBudget
import Lobu.Queue.Returns
import Lobu.Queue.Statement
import Lobu.Queue.Send
import Lobu.Queue.Enqueue
import Lobu.Queue.DurableSingleton
import Lobu.Queue.ConsumerLease
import Lobu.Worker.Grouping
import Lobu.Worker.MessageBatcher
import Lobu.Delivery.JobRouter
import Lobu.Scheduled.IsoDate
import Lobu.Scheduled.TaskScheduler
import Lobu.Scheduled.TickRuns
import Lobu.Scheduled.Continuity
import Lobu.Scheduled.ScheduledJobs
import Lobu.Scheduled.UserTicks
import Lobu.Scheduled.RowLocks
import Lobu.Scheduled.Quota
import Lobu.Scheduled.Reschedule
import Lobu.Turn.Liveness
import Lobu.Turn.Elections
import Lobu.Turn.TerminalAnswers
import Lobu.Turn.SilentTurns
import Lobu.Worker.ToolPolicy
import Lobu.Worker.ShellFragment
import Lobu.Worker.ShellPolicy
import Lobu.Foundation.IpText
import Lobu.Proxy.IpLiteral
import Lobu.Proxy.IpBlocking
import Lobu.Proxy.DomainPatterns
import Lobu.Proxy.GrantStore
import Lobu.Proxy.GrantLookup
import Lobu.Proxy.GrantHistory
import Lobu.Proxy.DomainAccess
import Lobu.Proxy.AccessDecisions
import Lobu.Core.WorkerToken
import Lobu.Core.TokenBindings
import Lobu.Configuration.Settings
import Lobu.Configuration.Store
import Lobu.Configuration.NativePatch
import Lobu.Configuration.Release
import Lobu.Configuration.Authority
import Lobu.Configuration.Outcomes
import Lobu.Configuration.Revisions
import Lobu.Configuration.Replays
import Lobu.Configuration.Ownership
import Lobu.Configuration.ReleaseOrder
import Lobu.Configuration.Drift
import Lobu.Reports.ObserverStore
import Lobu.Reports.Reconcile
import Lobu.Reports.Phases
import Lobu.Reports.Convergence
import Lobu.Reports.Fingerprint
import Lobu.Reports.Requests
import Lobu.Reports.Reruns
import Lobu.Courses.Session
import Lobu.Foundation.Process
import Lobu.Courses.Context
import Lobu.Courses.Retrieval
import Lobu.Courses.Gate
import Lobu.Courses.Dispatch
import Lobu.Courses.Replays
import Lobu.Courses.Claimants
import Lobu.Courses.ReplayedOnce
import Lobu.Courses.Evidence
import Lobu.Courses.Isolation
import Lobu.Foundation.PercentEncoding
import Lobu.Tools.ToolKeys
import Lobu.Foundation.Groups
import Lobu.Foundation.Record
import Lobu.Tools.EffectiveInventory
import Lobu.Tools.Eligibility
import Lobu.Tools.Authorization
import Lobu.Tools.InventoryReports
import Lobu.OAuth.Scopes
import Lobu.OAuth.Provider
import Lobu.OAuth.Chains
import Lobu.OAuth.Grants
import Lobu.OAuth.SingleUse
import Lobu.OAuth.Revocation
import Lobu.Connections.AnsweredOnce
import Lobu.Auth.KillSwitch
import Lobu.Connections.OutputGuardrail
import Lobu.Identity.Catalog
import Lobu.Identity.Engine
import Lobu.Identity.Diff
import Lobu.Identity.Derivations
import Lobu.Identity.Passes
import Lobu.Identity.Reconciliation
import Lobu.Identity.Support
import Lobu.Foundation.JsonText
import Lobu.Foundation.KeyOrder
import Lobu.Worker.TurnController
import Lobu.Worker.TurnBudget
import Lobu.Foundation.Framing
import Lobu.Foundation.Utf8
import Lobu.Delivery.EventStream
import Lobu.Delivery.StreamFraming
import Lobu.Connections.Sessions
import Lobu.Connections.SessionMutations
import Lobu.Connections.History
import Lobu.Connections.HistoryIndex
import Lobu.Connections.HistoryCoverage
import Lobu.Foundation.Solo
import Lobu.Worker.Transcript
import Lobu.Worker.TranscriptOrder
import Lobu.Worker.SessionReset
import Lobu.Foundation.OrderedMap
import Lobu.Proxy.CircuitBreaker
import Lobu.Proxy.PolicyHash
import Lobu.Core.LogRedaction
import Lobu.Watchers.UtcDate
import Lobu.Watchers.Periods
import Lobu.Watchers.PendingWindow
import Lobu.Watchers.WindowTiling
import Lobu.Connections.StateExpiry
import Lobu.Connections.QueueDelivery
import Lobu.Foundation.SqlText
import Lobu.Queries.ReadGate
import Lobu.Foundation.JsonGrammar
import Lobu.StrictJson.Parser
import Lobu.StrictJson.Reading
import Lobu.StrictJson.Elements
import Lobu.StrictJson.Accepted
import Lobu.Delivery.WorkerConnections
import Lobu.Foundation.JsonPath
import Lobu.Foundation.Words
import Lobu.Watchers.StableKeys
import Lobu.Tools.Allowlists
import Lobu.Foundation.JsonSchema
import Lobu.Tools.SchemaProjection
import Lobu.Configuration.GrantRuns
import Lobu.Configuration.FieldSchemas
import Lobu.Configuration.SettingsDigest
import Lobu.Configuration.ReleaseFormats
import Lobu.Configuration.ReleaseParsing
import Lobu.Configuration.ReleaseBytes
import Lobu.Foundation.LastWrites
import Lobu.Watchers.ExtractedItems
import Lobu.Watchers.Vocabulary
import Lobu.Watchers.ClassifierRun
import Lobu.Watchers.VocabularyKept
import Lobu.Devices.ConnectorCell
import Lobu.Devices.Reconciliation
import Lobu.Devices.FeedsFollow
import Lobu.Foundation.SlidingWindow
import Lobu.Limits.RateLimiter
import Lobu.Dates.Calendar
import Lobu.Dates.NextRecurrence
import Lobu.Dates.EarliestRecurrence
import Lobu.Foundation.Runs
import Lobu.Search.TextQuery
import Lobu.Search.SameTerms
import Lobu.Foundation.CaseMapping
import Lobu.Identifiers.Normalize
import Lobu.Identifiers.Canonical
import Lobu.Foundation.RegExp
import Lobu.Sources.Glob
import Lobu.Sources.GlobLanguage
import Lobu.Tools.CliCommands
import Lobu.Sources.Manifests
import Lobu.Sources.LocalFileSource
import Lobu.Limits.MetadataLimits
import Lobu.Proxy.VerdictCache
import Lobu.Executions.ExecutionTasks
import Lobu.Executions.Polling
