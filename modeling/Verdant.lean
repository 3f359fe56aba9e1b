import Verdant.Storage.ReceiptProtocol
import Verdant.Storage.OutboxLifecycle
import Verdant.Library.Ledger
import Verdant.Library.Prog
import Verdant.Domain.Binary64
import Verdant.Storage.Client
import Verdant.Action.Preview
import Verdant.Storage.Guarded
import Verdant.Action.JournalTables
import Verdant.Action.Journal
import Verdant.Action.JournalSteps
import Verdant.Action.JournalLaw
import Verdant.Action.TargetCas
import Verdant.Action.JournalRead
import Verdant.Action.TerminalFinal
import Verdant.Action.RateWindow
import Verdant.Action.Dispatch
import Verdant.Action.Expiry
import Verdant.Action.Publication
import Verdant.Action.Custody
import Verdant.Action.Joined
import Verdant.Action.HandoffGates
import Verdant.Action.MarkLaw
import Verdant.Action.JoinedAuthorize
import Verdant.Action.JoinedRuns
import Verdant.Domain.JsonText
import Verdant.Observation.Projection
import Verdant.Observation.WindowTables
import Verdant.Library.Interference
import Verdant.Observation.Writer
import Verdant.Observation.WriterSteps
import Verdant.Observation.ReplayHorizon
import Verdant.Domain.Clock
import Verdant.Access.Error
import Verdant.Observation.Time
import Verdant.Observation.Record
import Verdant.Observation.Receiver
import Verdant.Observation.ReceiverLaw
import Verdant.Library.Percent
import Verdant.Storage.Descriptor
import Verdant.Storage.OutboxHistory
import Verdant.Access.Names
import Verdant.Access.Rows
import Verdant.Access.State
import Verdant.Access.Gate
import Verdant.Access.Ledger
import Verdant.Access.Snapshot
import Verdant.Access.GateLaw
import Verdant.Access.GateRuns
import Verdant.Access.Progress
import Verdant.Access.Delegation
import Verdant.Binding.Entries
import Verdant.Binding.History
import Verdant.Binding.Ledger
import Verdant.Action.JournalCodec
import Verdant.Action.SealOrder
import Verdant.Action.TransitionOrder
import Verdant.Api.Appends
import Verdant.Api.Codec
import Verdant.Api.Journal
import Verdant.Api.JournalCalls
import Verdant.Api.JournalLaw
import Verdant.Api.JournalRuns
import Verdant.Api.JournalTables
import Verdant.Api.Ledger
import Verdant.Api.Operations
import Verdant.Api.Recovery
import Verdant.Api.Remember
import Verdant.Binding.Error
import Verdant.Binding.Proposal
import Verdant.Binding.Records
import Verdant.Binding.Registry
import Verdant.Binding.Rows
import Verdant.Cov.Honesty
import Verdant.Cov.Runs
import Verdant.Cov.Sight
import Verdant.Cov.Subscription
import Verdant.Cov.Watch
import Verdant.Domain.Json
import Verdant.Domain.Types
import Verdant.Domain.Values
import Verdant.Library.Frames
import Verdant.Library.Leads
import Verdant.Library.Pointwise
import Verdant.Library.Result
import Verdant.Library.SlidingWindow
import Verdant.Library.Text
import Verdant.Library.TryProg
import Verdant.Storage.Engine
import Verdant.Storage.Mutation
import Verdant.Storage.Outbox
import Verdant.Storage.OutboxRow
import Verdant.Storage.Receipts
import Verdant.Storage.Response
import Verdant.Work.Accounting
import Verdant.Work.Admission
import Verdant.Work.Delivery
import Verdant.Work.Effect
import Verdant.Work.Orderly
import Verdant.Work.Runtime
import Verdant.Work.Turns
import Verdant.Storage.ReceiptCodec
import Verdant.Library.Lines
import Verdant.Storage.Chunks
import Verdant.Domain.Reading
import Verdant.Action.Backup
import Verdant.Storage.OutboxFraming
import Verdant.Library.Settles
import Verdant.Library.Window
import Verdant.Action.Pages
import Verdant.Action.Scan
import Verdant.Action.Rediscovery
import Verdant.Action.Cleanup
import Verdant.Action.Announce
import Verdant.Action.HonestAnswers
import Verdant.Access.Generations
import Verdant.Binding.Readback
import Verdant.Binding.Replaying
import Verdant.Binding.BindingLaw
import Verdant.Binding.BindingCalls
import Verdant.Binding.BindingRuns
import Verdant.Library.Yields
import Verdant.Binding.PointKeys
import Verdant.Binding.ReplayFull
import Verdant.Seal.Codec
import Verdant.Seal.References
import Verdant.Library.Cuts
import Verdant.Binding.CanonicalBytes
import Verdant.Seal.Fingerprint
import Verdant.Accept.Codec
import Verdant.Accept.Effective
import Verdant.Accept.ConfigText
import Verdant.Accept.Staging
import Verdant.Accept.RoundTrip
import Verdant.Binding.ImportRule
import Verdant.Access.RowText
import Verdant.Access.Horizon
import Verdant.Library.Sorting
import Verdant.Semantics.Profile
import Verdant.Semantics.Convert
import Verdant.Semantics.Conversion
import Verdant.Semantics.Apply
import Verdant.Library.Silence
import Verdant.Api.Readers
import Verdant.Api.Unauthenticated
import Verdant.Binding.Granted
import Verdant.Api.Legible
import Verdant.Storage.QuietInsert
import Verdant.Api.Oversize
import Verdant.Seal.NativeRefs
import Verdant.Seal.Closure
import Verdant.Action.Walls
import Verdant.Storage.Truncated
import Verdant.Library.Acyclic
import Verdant.Semantics.Ancestry
import Verdant.Domain.Fixture
import Verdant.Semantics.Sources
import Verdant.Library.Backfill
import Verdant.Library.Serve
import Verdant.Semantics.Plan
import Verdant.Semantics.Reconcile
import Verdant.Library.Delimited
import Verdant.Semantics.SealedProfile
import Verdant.Semantics.SealedMeaning
import Verdant.Library.FixedPoint
import Verdant.Modbus.Map
import Verdant.Modbus.Exact
import Verdant.Bacnet.Attribution
import Verdant.Bacnet.Quarantine
import Verdant.Library.Slices
import Verdant.Config.Parse
import Verdant.Config.Grammar
import Verdant.Config.Exact
import Verdant.Accept.Approval
import Verdant.Seal.ClosureExact
import Verdant.Seal.Store
import Verdant.Seal.StoreLaw
import Verdant.Seal.StoreRuns
import Verdant.Observation.Normalize
import Verdant.Work.Slots
