import Fala.Durable.Table
import Fala.Durable.Ledger
import Fala.Durable.Rows
import Fala.Durable.History
import Fala.Json.Text
import Fala.Status
import Fala.Store.Database
import Fala.Engine.Pairing
import Fala.DomainPacks.RoundTrip
import Fala.Driver.Rearm
import Fala.Driver.Recovery
import Fala.Driver.Queues
import Fala.Driver.Usage
import Fala.Driver.Deadlocks
import Fala.Bridge.Operations
import Fala.Runs.Lifecycle
import Fala.Journal.Commands
import Fala.Journal.Transition
import Fala.Journal.Claim
import Fala.Journal.Complete
import Fala.Journal.Homeostat
import Fala.Journal.Writes
import Fala.Journal.Actions
import Fala.Domain.Effects
import Fala.Runs.Agreement
import Fala.Bridge.Effects
import Fala.Journal.Consistency
import Fala.Engine.Calls
import Fala.Engine.Actions
import Fala.Engine.Leases
import Fala.Driver.Claims
import Fala.Journal.Repeat
import Fala.Engine.Agreement
import Fala.Engine.Repeats
import Fala.Driver.Boundary
import Fala.Memory.Tee
import Fala.Jsonl.Crash
import Fala.Memory.Isolation
import Fala.Bridge.Interleavings
import Fala.Bridge.Delivered
import Fala.Host.Journal
import Fala.Host.Safety
import Fala.Host.Histories
import Fala.Port.Faithful
import Fala.Port.Twins
import Fala.Driver.Adapters
import Fala.Driver.AllRuns
import Fala.Driver.Selection
import Fala.Driver.Supported
import Fala.Driver.Bindings
import Fala.Driver.Environment
import Fala.Driver.Persisted
import Fala.Driver.Survival
import Fala.Json.Meaning
import Fala.Json.Judgement
import Fala.Correlation.Persistence
import Fala.Driver.Afterwards
import Fala.Driver.Announcements
import Fala.Correlation.Conditions
import Fala.Correlation.DomainValue
import Fala.Correlation.When
import Fala.Correlation.Identity
import Fala.Correlation.Feedback
import Fala.Package.Cycles
import Fala.Json.Exact
import Fala.Domain.Deletion
import Fala.Domain.Maintained
import Fala.Durable.Evaluation
import Fala.Journal.Compensation
import Fala.Domain.Collected
import Fala.Driver.Correlated
import Fala.Driver.Delegated
import Fala.Driver.TimedOut
import Fala.Host.ChildRuns
import Fala.Durable.Assoc
import Fala.Toml.Agreement
import Fala.Toml.Parts
import Fala.Driver.Identities
import Fala.Driver.Timestamps
import Fala.Journal.Confirmed
import Fala.Correlation.Terminals
import Fala.Correlation.Projected
import Fala.Driver.Concealed
import Fala.Driver.Redaction
import Fala.Package.Templates
import Fala.Package.Expansion
import Fala.Package.Simultaneous
import Fala.Package.Coverage
import Fala.Driver.Backoff
import Fala.Correlation.Ancestors
import Fala.Json.CanonicalText
import Fala.Toml.Tokens
import Fala.Text.Cursor
import Fala.Toml.Bytes
import Fala.Toml.Bounds
import Fala.Cli.Words
import Fala.Cli.Wrapper
import Fala.Digest.Sha256
import Fala.Digest.Standard
import Fala.Inspection.Agreement
import Fala.Inspection.IsoFormat
import Fala.Inspection.Leases
import Fala.Inspection.Reachable
import Fala.Inspection.Stamps
import Fala.Engine.Referential
import Fala.Correlation.Merging
import Fala.Correlation.Reconciled
