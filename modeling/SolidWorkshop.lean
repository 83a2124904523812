import SolidWorkshop.Compile.Artifact
import SolidWorkshop.Compile.Bench
import SolidWorkshop.Compile.Channel
import SolidWorkshop.Compile.Compiler
import SolidWorkshop.Compile.Reply
import SolidWorkshop.Compile.Request
import SolidWorkshop.Compile.Result
import SolidWorkshop.Compile.Stage
import SolidWorkshop.Engine.Arguments
import SolidWorkshop.Engine.Loader
import SolidWorkshop.Engine.Run
import SolidWorkshop.Engine.Workspace
import SolidWorkshop.Failure
import SolidWorkshop.Flight
import SolidWorkshop.Intake.Check
import SolidWorkshop.Intake.Issue
import SolidWorkshop.Job.Board
import SolidWorkshop.Job.Floor
import SolidWorkshop.Job.Record
import SolidWorkshop.Job.View
import SolidWorkshop.Json.Bytes
import SolidWorkshop.Json.Reader
import SolidWorkshop.Json.Tree
import SolidWorkshop.Json.Writer
import SolidWorkshop.Library.Client
import SolidWorkshop.Library.Directive
import SolidWorkshop.Library.Following
import SolidWorkshop.Library.Resolution
import SolidWorkshop.Library.Server
import SolidWorkshop.Library.Template
import SolidWorkshop.Log
import SolidWorkshop.Number
import SolidWorkshop.Number.Binary64
import SolidWorkshop.Number.Decimal
import SolidWorkshop.Number.Numeral
import SolidWorkshop.Parameter.Descriptor
import SolidWorkshop.Parameter.Override
import SolidWorkshop.Parameter.Scalar
import SolidWorkshop.Service.Assembly
import SolidWorkshop.Service.Settings
import SolidWorkshop.Service.Tuning
import SolidWorkshop.Service.Verbosity
import SolidWorkshop.Source.Annotation
import SolidWorkshop.Source.Extraction
import SolidWorkshop.Source.Line
import SolidWorkshop.Source.Literal
import SolidWorkshop.Source.Session
import SolidWorkshop.Source.Synthesis
import SolidWorkshop.Storage.Digest
import SolidWorkshop.Storage.Name
import SolidWorkshop.Storage.Path
import SolidWorkshop.Storage.Size
import SolidWorkshop.Text.Blank
import SolidWorkshop.Text.Case
import SolidWorkshop.Text.Digit
import SolidWorkshop.Text.Point
import SolidWorkshop.Text.Printable
import SolidWorkshop.Text.Quoted
import SolidWorkshop.Text.Split
import SolidWorkshop.Text.Utf8
import SolidWorkshop.Time
import SolidWorkshop.Time.Reading
import SolidWorkshop.Url
import SolidWorkshop.Value
import SolidWorkshop.Web.Body
import SolidWorkshop.Web.Conversation
import SolidWorkshop.Web.Response
import SolidWorkshop.Web.Route
import SolidWorkshop.Web.Site
import SolidWorkshop.Web.Target
import SolidWorkshop.Web.View
import SolidWorkshop.Proofs.Source.Layout
import SolidWorkshop.Proofs.Source.Anchor
import SolidWorkshop.Proofs.Source.Writing
import SolidWorkshop.Proofs.Source.Reextraction
import SolidWorkshop.Proofs.Job.Schedule
import SolidWorkshop.Proofs.Job.Resubmission
import SolidWorkshop.Proofs.Compile.Request
import SolidWorkshop.Proofs.Flight.Move
import SolidWorkshop.Proofs.Flight.Links
import SolidWorkshop.Proofs.Flight.Ledger
import SolidWorkshop.Proofs.Flight.Agenda
import SolidWorkshop.Proofs.Flight.Quiescence
import SolidWorkshop.Proofs.Flight.Fate
import SolidWorkshop.Proofs.Flight.Sharing
import SolidWorkshop.Proofs.Number.Exact
import SolidWorkshop.Proofs.Source.Override
import SolidWorkshop.Proofs.Engine.Output
import SolidWorkshop.Proofs.Engine.Workspace
import SolidWorkshop.Proofs.Parameter.Coercion
import SolidWorkshop.Proofs.Compile.Verdict
import SolidWorkshop.Proofs.Job.Custody
import SolidWorkshop.Proofs.Job.Cancellation
import SolidWorkshop.Proofs.Job.Order
import SolidWorkshop.Proofs.Job.Coherence
import SolidWorkshop.Proofs.Source.Confirmation
import SolidWorkshop.Proofs.Source.Answering
import SolidWorkshop.Proofs.Compile.Isolation
import SolidWorkshop.Proofs.Compile.Aftermath
import SolidWorkshop.Proofs.Source.Grammar
import SolidWorkshop.Proofs.Source.Preamble
import SolidWorkshop.Proofs.Job.Completion
import SolidWorkshop.Proofs.Library.Files
import SolidWorkshop.Proofs.Library.Transfer
import SolidWorkshop.Proofs.Library.Traffic
import SolidWorkshop.Proofs.Library.Following
import SolidWorkshop.Proofs.Flight.Caller
import SolidWorkshop.Proofs.Library.Resolution
import SolidWorkshop.Proofs.Library.Refusal
import SolidWorkshop.Proofs.Source.ByName
import SolidWorkshop.Proofs.Source.Staleness
import SolidWorkshop.Proofs.Source.Range
import SolidWorkshop.Proofs.Source.LineEnds
import SolidWorkshop.Proofs.Job.Pruning
import SolidWorkshop.Proofs.Compile.Containment
import SolidWorkshop.Proofs.Number.Overflow
import SolidWorkshop.Proofs.Source.Options
import SolidWorkshop.Proofs.Job.Capacity
import SolidWorkshop.Proofs.Parameter.Slider
import SolidWorkshop.Proofs.Library.Accounting
import SolidWorkshop.Proofs.Compile.Relay
import SolidWorkshop.Proofs.Job.Attendance
import SolidWorkshop.Proofs.Web.Agreement
import SolidWorkshop.Proofs.Source.Heading
import SolidWorkshop.Proofs.Storage.SafeName
import SolidWorkshop.Proofs.Job.Filing
import SolidWorkshop.Proofs.Library.Directive
import SolidWorkshop.Proofs.Source.Quotation
