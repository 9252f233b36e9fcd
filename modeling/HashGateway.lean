import HashGateway.Command.Operation
import HashGateway.Command.Template
import HashGateway.Credentials
import HashGateway.Credentials.Pem
import HashGateway.Decimal.Binary64
import HashGateway.Decimal.Extended
import HashGateway.Decimal.Layout
import HashGateway.Decimal.Shortest
import HashGateway.Endpoint
import HashGateway.Engine
import HashGateway.Error
import HashGateway.Exchange
import HashGateway.Gateway
import HashGateway.Host.Fault
import HashGateway.Host.FileTree
import HashGateway.Host.Path
import HashGateway.Host.SocketAddress
import HashGateway.Json.Fault
import HashGateway.Json.Figures
import HashGateway.Json.Reader
import HashGateway.Json.Text
import HashGateway.Json.Value
import HashGateway.Launch.Arguments
import HashGateway.Launch.Start
import HashGateway.Ordered
import HashGateway.Outcome
import HashGateway.Record.Request
import HashGateway.Record.Shape
import HashGateway.Reply
import HashGateway.Settings.Basic
import HashGateway.Settings.Fault
import HashGateway.Settings.Kind
import HashGateway.Settings.Parse
import HashGateway.Store.Basic
import HashGateway.Store.Command
import HashGateway.Store.Glob
import HashGateway.Store.Scan
import HashGateway.Text.Base64
import HashGateway.Text.Blank
import HashGateway.Text.Numeral
import HashGateway.Text.Printable
import HashGateway.Text.Utf8
import HashGateway.Wire.Address
import HashGateway.Wire.Failure
import HashGateway.Wire.Link
import HashGateway.Wire.Resp
import HashGateway.Workers
import HashGateway.Main
import HashGateway.Proofs.Results
import HashGateway.Proofs.Utf8
import HashGateway.Proofs.Numeral
import HashGateway.Proofs.Operation
import HashGateway.Proofs.Store.Replies
import HashGateway.Proofs.Store.Histories
import HashGateway.Proofs.Store.Scans
import HashGateway.Proofs.Store.Patterns
import HashGateway.Proofs.Store.Effects
import HashGateway.Proofs.Demand
import HashGateway.Proofs.DemandExchange
import HashGateway.Proofs.Transcript
import HashGateway.Proofs.Registration
import HashGateway.Proofs.Acknowledgement
import HashGateway.Proofs.Acceptance
import HashGateway.Proofs.Traces
import HashGateway.Proofs.Paging
import HashGateway.Proofs.TraceListing
import HashGateway.Proofs.Json.Grammar
import HashGateway.Proofs.Json.Readers
import HashGateway.Proofs.Record.Documents
import HashGateway.Proofs.DocumentListing
import HashGateway.Proofs.Json.Passing
import HashGateway.Proofs.Record.Rows
import HashGateway.Proofs.Record.Texts
import HashGateway.Proofs.Record.Lengths
import HashGateway.Proofs.FileRoundTrip
import HashGateway.Proofs.TraceSeparation
import HashGateway.Proofs.Traffic
import HashGateway.Proofs.Interference
import HashGateway.Proofs.WellFormed
import HashGateway.Proofs.FileIndex
import HashGateway.Proofs.RegistrationRaces
import HashGateway.Proofs.Json.Numerals
import HashGateway.Proofs.Json.Rendering
import HashGateway.Proofs.FileListing
import HashGateway.Proofs.Wire.Reads
import HashGateway.Proofs.Wire.Messages
import HashGateway.Proofs.Wire.Interruption
import HashGateway.Proofs.Wire.Serving
import HashGateway.Proofs.Wire.Interchange
import HashGateway.Proofs.Envelopes
import HashGateway.Proofs.CommandTable
import HashGateway.Proofs.Settings.Lines
import HashGateway.Proofs.Settings.Arguments
import HashGateway.Proofs.Settings.Independence
import HashGateway.Proofs.Settings.Usable
import HashGateway.Proofs.WorkerPool
import HashGateway.Proofs.Footprint
import HashGateway.Proofs.Filling
import HashGateway.Proofs.Json.Exactness
import HashGateway.Proofs.Outcomes
import HashGateway.Proofs.Record.Members
import HashGateway.Proofs.Record.Requests
import HashGateway.Proofs.Cursors
import HashGateway.Proofs.Replacement
import HashGateway.Proofs.Launch.Failures
import HashGateway.Proofs.Host.Walks
import HashGateway.Proofs.Launch.Logging
