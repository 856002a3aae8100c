import SlurmLink.Breaker
import SlurmLink.Call
import SlurmLink.Client
import SlurmLink.Command.Arguments
import SlurmLink.Command.Basic
import SlurmLink.Command.Errand
import SlurmLink.Compatibility
import SlurmLink.Config
import SlurmLink.Context
import SlurmLink.Credentials
import SlurmLink.Decimal.Binary64
import SlurmLink.Decimal.Shortest
import SlurmLink.Discovery
import SlurmLink.Error
import SlurmLink.Failure
import SlurmLink.Http
import SlurmLink.Json.Basic
import SlurmLink.Json.Canonical
import SlurmLink.Json.Double
import SlurmLink.Json.Printer
import SlurmLink.Json.Reader
import SlurmLink.Json.Record
import SlurmLink.Link
import SlurmLink.Operation
import SlurmLink.Rejection
import SlurmLink.Resource.Accounting
import SlurmLink.Resource.Cluster
import SlurmLink.Resource.Job
import SlurmLink.Resource.Node
import SlurmLink.Resource.Page
import SlurmLink.Resource.Quantity
import SlurmLink.Resource.Reservation
import SlurmLink.Retry
import SlurmLink.Revision
import SlurmLink.Schedule
import SlurmLink.Session.Basic
import SlurmLink.Session.Negotiation
import SlurmLink.Session.Table
import SlurmLink.Text.Blank
import SlurmLink.Text.Number
import SlurmLink.Text.Printable
import SlurmLink.Text.Quoted
import SlurmLink.Text.Record
import SlurmLink.Text.Utf8
import SlurmLink.Time.Calendar
import SlurmLink.Time.Span
import SlurmLink.Time.Timestamp
import SlurmLink.Unicode.Bidi
import SlurmLink.Unicode.CombiningClass
import SlurmLink.Unicode.Composition
import SlurmLink.Unicode.Joining
import SlurmLink.Unicode.Mark
import SlurmLink.Unicode.Normalization
import SlurmLink.Unicode.Table
import SlurmLink.Url.Basic
import SlurmLink.Url.Domain.Basic
import SlurmLink.Url.Domain.Label
import SlurmLink.Url.Domain.Mapping
import SlurmLink.Url.Host
import SlurmLink.Url.Percent
import SlurmLink.Url.Punycode
import SlurmLink.Version
import SlurmLink.Watch.Diff
import SlurmLink.Watch.Poller
import SlurmLink.Watch.Receiver
import SlurmLink.Watch.Subject
import SlurmLink.Proofs.Breaker
import SlurmLink.Proofs.BreakerIncident
import SlurmLink.Proofs.BreakerHistory
import SlurmLink.Proofs.Call
import SlurmLink.Proofs.Schedule
import SlurmLink.Proofs.CallRun
import SlurmLink.Proofs.Cancellation
import SlurmLink.Proofs.ChangeReplay
import SlurmLink.Proofs.Attempts
import SlurmLink.Proofs.Activity
import SlurmLink.Proofs.PermitBooks
import SlurmLink.Proofs.Traffic
import SlurmLink.Proofs.Healing
import SlurmLink.Proofs.StalePermit
import SlurmLink.Proofs.Pool
import SlurmLink.Proofs.Acquisition
import SlurmLink.Proofs.Lobby
import SlurmLink.Proofs.SingleFlight
import SlurmLink.Proofs.SessionRecord
import SlurmLink.Proofs.Matrix
import SlurmLink.Proofs.Negotiation
import SlurmLink.Proofs.SessionAge
import SlurmLink.Proofs.Errand
import SlurmLink.Proofs.Freshness
import SlurmLink.Proofs.Gate
import SlurmLink.Proofs.AcquisitionRun
import SlurmLink.Proofs.Waiting
import SlurmLink.Proofs.Watch
import SlurmLink.Proofs.Succession
import SlurmLink.Proofs.Renewal
import SlurmLink.Proofs.ChangeLog
import SlurmLink.Proofs.Path
import SlurmLink.Proofs.Address
import SlurmLink.Proofs.Authority
import SlurmLink.Proofs.Extension
import SlurmLink.Proofs.Discovery
import SlurmLink.Proofs.JsonText
import SlurmLink.Proofs.Canonical
import SlurmLink.Proofs.Document
import SlurmLink.Proofs.Backoff
import SlurmLink.Proofs.Configured
import SlurmLink.Proofs.Report
import SlurmLink.Proofs.Secrecy
import SlurmLink.Proofs.Stillness
import SlurmLink.Proofs.Vacancy
import SlurmLink.Proofs.Docket
import SlurmLink.Proofs.Isolation
import SlurmLink.Proofs.Solitude
import SlurmLink.Proofs.Tenure
import SlurmLink.Proofs.Continuity
import SlurmLink.Proofs.Comparison
import SlurmLink.Proofs.WellFormed
import SlurmLink.Proofs.Resolution
import SlurmLink.Proofs.Lookup
import SlurmLink.Proofs.Selection
import SlurmLink.Proofs.Spelling
import SlurmLink.Proofs.VersionText
import SlurmLink.Proofs.Release
import SlurmLink.Proofs.Window
import SlurmLink.Proofs.Records
import SlurmLink.Proofs.Paging
import SlurmLink.Proofs.Submission
import SlurmLink.Proofs.Update
import SlurmLink.Proofs.Envelope
import SlurmLink.Proofs.Rounding
import SlurmLink.Proofs.Power
import SlurmLink.Proofs.NominalDelay
import SlurmLink.Proofs.TextList
import SlurmLink.Proofs.Calendar
import SlurmLink.Proofs.TimeText
import SlurmLink.Proofs.JobText
import SlurmLink.Proofs.JobState
import SlurmLink.Proofs.ContextDone
import SlurmLink.Proofs.ContextTree
import SlurmLink.Proofs.Tightening
