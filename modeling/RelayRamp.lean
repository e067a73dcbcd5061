import RelayRamp.Admin.Endpoint
import RelayRamp.Admin.Reply
import RelayRamp.Admin.Request
import RelayRamp.Admin.Service
import RelayRamp.Admission.Attempt
import RelayRamp.Admission.Counters
import RelayRamp.Admission.Verdict
import RelayRamp.Audit
import RelayRamp.Cli.Catalog
import RelayRamp.Cli.Command
import RelayRamp.Cli.Offline
import RelayRamp.Cli.Program
import RelayRamp.Codec.Admission
import RelayRamp.Codec.Call
import RelayRamp.Codec.Config
import RelayRamp.Codec.Plane
import RelayRamp.Codec.Routing
import RelayRamp.Codec.Store
import RelayRamp.Codec.Tables
import RelayRamp.Codec.Time
import RelayRamp.Codec.Warmup
import RelayRamp.Config.Example
import RelayRamp.Config.Fault
import RelayRamp.Config.Loading
import RelayRamp.Config.Reading
import RelayRamp.Config.Settings
import RelayRamp.Config.Validation
import RelayRamp.Decimal.Reading
import RelayRamp.Decimal.Shortest
import RelayRamp.Fault
import RelayRamp.Files.Access
import RelayRamp.Files.Disk
import RelayRamp.Files.Path
import RelayRamp.Host.Desk
import RelayRamp.Host.Listeners
import RelayRamp.Host.Machine
import RelayRamp.Json.Basic
import RelayRamp.Json.Parser
import RelayRamp.Json.Printer
import RelayRamp.Lease.Acquisition
import RelayRamp.Lease.Pool
import RelayRamp.Lease.Slot
import RelayRamp.Lease.Waiting
import RelayRamp.Main
import RelayRamp.Net.Address
import RelayRamp.Plane.Control
import RelayRamp.Plane.Engine
import RelayRamp.Plane.Maintenance
import RelayRamp.Plane.Metrics
import RelayRamp.Plane.Settings
import RelayRamp.Plane.Snapshot
import RelayRamp.Policy.Conversation
import RelayRamp.Policy.Framing
import RelayRamp.Policy.Request
import RelayRamp.Postfix.ServiceBlock
import RelayRamp.Postfix.TransportMap
import RelayRamp.Rehearsal.Bench
import RelayRamp.Rehearsal.Leases
import RelayRamp.Rehearsal.Tagged
import RelayRamp.Routing.Domain
import RelayRamp.Routing.Matcher
import RelayRamp.Routing.Pattern
import RelayRamp.Routing.Rule
import RelayRamp.Routing.Transport
import RelayRamp.Schedule.Board
import RelayRamp.Proofs.Lease.Operation
import RelayRamp.Proofs.Lease.Serving
import RelayRamp.Seed
import RelayRamp.Server.Setup
import RelayRamp.Server.Sink
import RelayRamp.Store.Backing
import RelayRamp.Store.Call
import RelayRamp.Store.Durable
import RelayRamp.Store.Edit
import RelayRamp.Store.Location
import RelayRamp.Store.Memory
import RelayRamp.Store.Opening
import RelayRamp.Store.Outage
import RelayRamp.Text.Blank
import RelayRamp.Text.Natural
import RelayRamp.Text.Percent
import RelayRamp.Text.Utf8
import RelayRamp.Time.Instant
import RelayRamp.Time.Rfc3339
import RelayRamp.Time.Window
import RelayRamp.Toml.Document
import RelayRamp.Toml.Parser
import RelayRamp.Toml.Scalar
import RelayRamp.Toml.Text
import RelayRamp.Toml.Value
import RelayRamp.Warmup.Clock
import RelayRamp.Warmup.Config
import RelayRamp.Warmup.Phase
import RelayRamp.Width
import RelayRamp.Proofs.Lease.Balance
import RelayRamp.Proofs.Lease.Generations
import RelayRamp.Proofs.Lease.Traffic
import RelayRamp.Proofs.Lease.Outstanding
import RelayRamp.Proofs.Lease.Capacity
import RelayRamp.Proofs.Lease.Wakeup
import RelayRamp.Proofs.Lease.Callers
import RelayRamp.Proofs.Lease.Order
import RelayRamp.Proofs.Lease.Arrivals
import RelayRamp.Proofs.Lease.Release
import RelayRamp.Proofs.Lease.Lifetime
import RelayRamp.Proofs.Lease.Custody
import RelayRamp.Proofs.Plane.Calls
import RelayRamp.Proofs.Plane.Commands
import RelayRamp.Proofs.Store.Contents
import RelayRamp.Proofs.Plane.Coherence
import RelayRamp.Proofs.Admission.Attempts
import RelayRamp.Proofs.Admission.Service
import RelayRamp.Proofs.Admission.Windows
import RelayRamp.Proofs.Admission.Volume
import RelayRamp.Proofs.Admission.Conservation
import RelayRamp.Proofs.Lease.History
import RelayRamp.Proofs.Admission.Records
import RelayRamp.Proofs.Admission.Mirror
import RelayRamp.Proofs.Admission.Outcome
import RelayRamp.Proofs.Routing.Patterns
import RelayRamp.Proofs.Store.Effects
import RelayRamp.Proofs.Store.Rules
import RelayRamp.Proofs.Store.Buckets
import RelayRamp.Proofs.Plane.Rejection
import RelayRamp.Proofs.Admission.Restoring
import RelayRamp.Proofs.Admission.Invariants
import RelayRamp.Proofs.Admission.Persistence
import RelayRamp.Proofs.Admission.Restart
import RelayRamp.Proofs.Admission.OperatorFaults
import RelayRamp.Proofs.Admission.Budget
import RelayRamp.Proofs.Warmup.Table
import RelayRamp.Proofs.Admission.Burst
import RelayRamp.Proofs.Routing.Rosters
import RelayRamp.Proofs.Lease.Setup
import RelayRamp.Proofs.Plane.Rerouting
import RelayRamp.Proofs.Admission.Transports
import RelayRamp.Proofs.Store.Rows
import RelayRamp.Proofs.Store.RuleRows
import RelayRamp.Proofs.Store.RuleTable
import RelayRamp.Proofs.Store.Agreement
import RelayRamp.Proofs.Admission.RuleHistory
import RelayRamp.Proofs.Text.Lines
import RelayRamp.Proofs.Routing.Selection
import RelayRamp.Proofs.Postfix.Lookup
import RelayRamp.Proofs.Postfix.Services
import RelayRamp.Proofs.Store.Rounding
import RelayRamp.Proofs.Plane.Jumps
import RelayRamp.Proofs.Lease.Succession
import RelayRamp.Proofs.Lease.Removal
import RelayRamp.Proofs.Lease.Absence
import RelayRamp.Proofs.Lease.Unserved
import RelayRamp.Proofs.Lease.Traceless
import RelayRamp.Proofs.Admission.Spacing
import RelayRamp.Proofs.Store.Stock
import RelayRamp.Proofs.Plane.Seeding
import RelayRamp.Proofs.Policy.Stream
import RelayRamp.Proofs.Plane.Reports
import RelayRamp.Proofs.Admission.Tallies
import RelayRamp.Proofs.Store.Columns
import RelayRamp.Proofs.Plane.Movers
import RelayRamp.Proofs.Admission.Unmoved
import RelayRamp.Proofs.Plane.Watch
import RelayRamp.Proofs.Plane.Validity
import RelayRamp.Proofs.Plane.Healing
import RelayRamp.Proofs.Admission.Recovery
import RelayRamp.Proofs.Routing.Resolution
import RelayRamp.Proofs.Lease.Turns
import RelayRamp.Proofs.Lease.Clock
import RelayRamp.Proofs.Lease.Deadlines
import RelayRamp.Proofs.Lease.Answers
import RelayRamp.Proofs.Lease.Sweep
import RelayRamp.Proofs.Admission.PairedCommit
import RelayRamp.Proofs.Warmup.Placement
import RelayRamp.Proofs.Warmup.Overrides
import RelayRamp.Proofs.Warmup.Acceptance
import RelayRamp.Proofs.Text.Search
import RelayRamp.Proofs.Postfix.Splicing
import RelayRamp.Proofs.Routing.Canonical
import RelayRamp.Proofs.Json.Records
import RelayRamp.Proofs.Codec.Wire
import RelayRamp.Proofs.Store.Transactions
import RelayRamp.Proofs.Lease.Handles
import RelayRamp.Proofs.Lease.Errands
import RelayRamp.Proofs.Lease.Interleaving
import RelayRamp.Proofs.Lease.Retirement
import RelayRamp.Proofs.Routing.Labels
import RelayRamp.Proofs.Time.Calendar
import RelayRamp.Proofs.Admission.Tiling
import RelayRamp.Proofs.Plane.Requests
import RelayRamp.Proofs.Store.Storing
import RelayRamp.Proofs.Plane.Accepted
import RelayRamp.Proofs.Admission.Reachable
import RelayRamp.Proofs.Admission.UnknownRules
import RelayRamp.Proofs.Admission.AcceptedInput
