import LiveFeed.Calendar
import LiveFeed.Clock
import LiveFeed.CommandLine
import LiveFeed.Config
import LiveFeed.Feed.Basic
import LiveFeed.Feed.Delivery
import LiveFeed.FileTree
import LiveFeed.Json.Reader
import LiveFeed.Json.Writer
import LiveFeed.Limits
import LiveFeed.Log.Basic
import LiveFeed.Log.Snapshot
import LiveFeed.Main
import LiveFeed.Number.Binary64
import LiveFeed.Number.Decimal
import LiveFeed.Outside
import LiveFeed.Proofs.CommandLine
import LiveFeed.Proofs.Config
import LiveFeed.Proofs.Feed.Admission
import LiveFeed.Proofs.Feed.Advance
import LiveFeed.Proofs.Feed.Archive
import LiveFeed.Proofs.Feed.Atomic
import LiveFeed.Proofs.Feed.Calls
import LiveFeed.Proofs.Feed.Delivery
import LiveFeed.Proofs.Feed.History
import LiveFeed.Proofs.Feed.Operation
import LiveFeed.Proofs.Feed.Reentrance
import LiveFeed.Proofs.Feed.Round
import LiveFeed.Proofs.Feed.Session
import LiveFeed.Proofs.Feed.Shift
import LiveFeed.Proofs.Feed.Steady
import LiveFeed.Proofs.Feed.Window
import LiveFeed.Proofs.FileTree
import LiveFeed.Proofs.Json.Depth
import LiveFeed.Proofs.Json.RoundTrip
import LiveFeed.Proofs.Json.Scalar
import LiveFeed.Proofs.Json.Stop
import LiveFeed.Proofs.Json.Wording
import LiveFeed.Proofs.Log.Acceptance
import LiveFeed.Proofs.Log.Age
import LiveFeed.Proofs.Log.Boundary
import LiveFeed.Proofs.Log.Partition
import LiveFeed.Proofs.Log.Readers
import LiveFeed.Proofs.Log.Rebuilt
import LiveFeed.Proofs.Log.Scale
import LiveFeed.Proofs.Log.Snapshot
import LiveFeed.Proofs.Log.Stamp
import LiveFeed.Proofs.Log.Sweep
import LiveFeed.Proofs.Log.Timed
import LiveFeed.Proofs.Log.Window
import LiveFeed.Proofs.Number.Difference
import LiveFeed.Proofs.Number.Packing
import LiveFeed.Proofs.Number.Place
import LiveFeed.Proofs.Number.Rounding
import LiveFeed.Proofs.Number.Whole
import LiveFeed.Proofs.Outside
import LiveFeed.Proofs.Path
import LiveFeed.Proofs.Publisher.Carrying
import LiveFeed.Proofs.Publisher.Readings
import LiveFeed.Proofs.Publisher.Requests
import LiveFeed.Proofs.Publisher.Run
import LiveFeed.Proofs.Publisher.Sending
import LiveFeed.Proofs.Request.Accounting
import LiveFeed.Proofs.Request.Agreement
import LiveFeed.Proofs.Request.Decision
import LiveFeed.Proofs.Request.Handling
import LiveFeed.Proofs.Request.Message
import LiveFeed.Proofs.Request.Refusal
import LiveFeed.Proofs.Request.Restart
import LiveFeed.Proofs.Request.Verdict
import LiveFeed.Proofs.Service.Configuration
import LiveFeed.Proofs.Service.Endurance
import LiveFeed.Proofs.Service.Ledger
import LiveFeed.Proofs.Service.Request
import LiveFeed.Proofs.Service.Run
import LiveFeed.Proofs.Service.Sending
import LiveFeed.Proofs.Service.Serving
import LiveFeed.Proofs.Service.Window
import LiveFeed.Proofs.StateFile
import LiveFeed.Proofs.StateFile.Replacement
import LiveFeed.Proofs.StateFile.Temporary
import LiveFeed.Proofs.Steps
import LiveFeed.Proofs.Text.Ascii
import LiveFeed.Proofs.Text.Hex
import LiveFeed.Proofs.Text.Quoted
import LiveFeed.Proofs.Text.Units
import LiveFeed.Proofs.Value.Order
import LiveFeed.Proofs.Watcher.Run
import LiveFeed.Proofs.Watcher.Sighting
import LiveFeed.Publisher.Options
import LiveFeed.Publisher.Readings
import LiveFeed.Publisher.Run
import LiveFeed.Request.Handling
import LiveFeed.Request.Message
import LiveFeed.Request.Metrics
import LiveFeed.Service.Options
import LiveFeed.Service.Run
import LiveFeed.StateFile
import LiveFeed.Text.Basic
import LiveFeed.Text.Casing
import LiveFeed.Text.Hex
import LiveFeed.Text.Numeral
import LiveFeed.Text.Printable
import LiveFeed.Text.Quoted
import LiveFeed.Text.Utf8
import LiveFeed.Value.Basic
import LiveFeed.Value.Order
import LiveFeed.Value.Text
import LiveFeed.Watcher.Run
import LiveFeed.Watcher.Sighting
import LiveFeed.Yaml.Datum
import LiveFeed.Yaml.Descent
import LiveFeed.Yaml.Document
import LiveFeed.Yaml.Lexer
import LiveFeed.Yaml.Merge
import LiveFeed.Yaml.Node
import LiveFeed.Yaml.Scalar
import LiveFeed.Yaml.Source
import LiveFeed.Yaml.Tag
import LiveFeed.Yaml.Token
