import ReviewChecks.Action
import ReviewChecks.Board
import ReviewChecks.Board.Encoding
import ReviewChecks.Board.Entry
import ReviewChecks.Board.Reading
import ReviewChecks.Change
import ReviewChecks.Change.Encoding
import ReviewChecks.Config
import ReviewChecks.Config.Encoding
import ReviewChecks.Config.File
import ReviewChecks.Decimal
import ReviewChecks.Error
import ReviewChecks.Fetch
import ReviewChecks.Fetch.Encoding
import ReviewChecks.Fixture
import ReviewChecks.Host
import ReviewChecks.Json
import ReviewChecks.Json.Printer
import ReviewChecks.Json.Reader
import ReviewChecks.Json.Record
import ReviewChecks.Model
import ReviewChecks.Model.Agenda
import ReviewChecks.Model.Move
import ReviewChecks.Model.Task
import ReviewChecks.Notice
import ReviewChecks.Pipeline
import ReviewChecks.Proofs.Board.Account
import ReviewChecks.Proofs.Board.Arrival
import ReviewChecks.Proofs.Board.Derivation
import ReviewChecks.Proofs.Board.LatestAttempts
import ReviewChecks.Proofs.Board.Locality
import ReviewChecks.Proofs.Board.Names
import ReviewChecks.Proofs.Board.ReadBack
import ReviewChecks.Proofs.Board.Summaries
import ReviewChecks.Proofs.Change.Revisions
import ReviewChecks.Proofs.Change.Uploads
import ReviewChecks.Proofs.Config.File
import ReviewChecks.Proofs.Config.Intervals
import ReviewChecks.Proofs.Json.Printing
import ReviewChecks.Proofs.Json.Records
import ReviewChecks.Proofs.Json.Retention
import ReviewChecks.Proofs.Model.Actions
import ReviewChecks.Proofs.Model.Awaiting
import ReviewChecks.Proofs.Model.Coherence
import ReviewChecks.Proofs.Model.Crash
import ReviewChecks.Proofs.Model.Enrolment
import ReviewChecks.Proofs.Model.Following
import ReviewChecks.Proofs.Model.Frame
import ReviewChecks.Proofs.Model.Growth
import ReviewChecks.Proofs.Model.Hiding
import ReviewChecks.Proofs.Model.Isolation
import ReviewChecks.Proofs.Model.Journal
import ReviewChecks.Proofs.Model.Loading
import ReviewChecks.Proofs.Model.Navigation
import ReviewChecks.Proofs.Model.Owners
import ReviewChecks.Proofs.Model.Pin
import ReviewChecks.Proofs.Model.Precedence
import ReviewChecks.Proofs.Model.Registrations
import ReviewChecks.Proofs.Model.Relay
import ReviewChecks.Proofs.Model.Rounds
import ReviewChecks.Proofs.Model.Shutdown
import ReviewChecks.Proofs.Model.Stimuli
import ReviewChecks.Proofs.Model.Throttling
import ReviewChecks.Proofs.Pipeline.Course
import ReviewChecks.Proofs.Pipeline.Currency
import ReviewChecks.Proofs.Pipeline.Evaluations
import ReviewChecks.Proofs.Pipeline.History
import ReviewChecks.Proofs.Pipeline.Independence
import ReviewChecks.Proofs.Pipeline.Polling
import ReviewChecks.Proofs.Pipeline.Reloads
import ReviewChecks.Proofs.Pipeline.Requests
import ReviewChecks.Proofs.Pipeline.Succession
import ReviewChecks.Proofs.Pipeline.Turn
import ReviewChecks.Proofs.RoundTrip
import ReviewChecks.Proofs.Run.Aggregation
import ReviewChecks.Proofs.Run.Attempts
import ReviewChecks.Proofs.Run.Derivation
import ReviewChecks.Proofs.Run.Encoding
import ReviewChecks.Proofs.Run.Identity
import ReviewChecks.Proofs.Store.Memo
import ReviewChecks.Proofs.Store.Publishing
import ReviewChecks.Proofs.Store.PushEffect
import ReviewChecks.Proofs.Store.Pushes
import ReviewChecks.Proofs.Store.Stream
import ReviewChecks.Proofs.Store.Versions
import ReviewChecks.Proofs.Table
import ReviewChecks.Proofs.Text.Digits
import ReviewChecks.Proofs.Time.Notation
import ReviewChecks.Proofs.Toml.Documents
import ReviewChecks.Proofs.Toml.Keys
import ReviewChecks.Proofs.Toml.Names
import ReviewChecks.Provider
import ReviewChecks.Provider.Script
import ReviewChecks.Run
import ReviewChecks.Run.Attempt
import ReviewChecks.Run.Derived
import ReviewChecks.Run.Encoding
import ReviewChecks.Run.Status
import ReviewChecks.Store
import ReviewChecks.Store.Stream
import ReviewChecks.Store.View
import ReviewChecks.Store.View.Encoding
import ReviewChecks.Table
import ReviewChecks.Telemetry
import ReviewChecks.Telemetry.Encoding
import ReviewChecks.Text.Blank
import ReviewChecks.Text.Digits
import ReviewChecks.Time.Date
import ReviewChecks.Time.Notation
import ReviewChecks.Time.Timestamp
import ReviewChecks.Toml
import ReviewChecks.Toml.Document
import ReviewChecks.Toml.Quoted
import ReviewChecks.Toml.Scalar
