import KeyRelay.Adapter.Basic
import KeyRelay.Adapter.Lifecycle
import KeyRelay.Assembly
import KeyRelay.Change
import KeyRelay.Conduit
import KeyRelay.Counter
import KeyRelay.Counter.Race
import KeyRelay.Decimal.Double
import KeyRelay.Decimal.Shortest
import KeyRelay.Event
import KeyRelay.Fault
import KeyRelay.Feed
import KeyRelay.Http.Message
import KeyRelay.Http.Router
import KeyRelay.Http.Target
import KeyRelay.Item
import KeyRelay.Json.Basic
import KeyRelay.Json.Lexeme
import KeyRelay.Json.Parser
import KeyRelay.Json.Printer
import KeyRelay.Json.ReadError
import KeyRelay.Json.Skip
import KeyRelay.Json.Variant
import KeyRelay.Key
import KeyRelay.KeyValue
import KeyRelay.KeyValue.Reading
import KeyRelay.LogEntry
import KeyRelay.Net.Address
import KeyRelay.Net.SystemError
import KeyRelay.Options
import KeyRelay.Pattern
import KeyRelay.Proofs.Adapter.Eras
import KeyRelay.Proofs.Adapter.Finality
import KeyRelay.Proofs.Adapter.Life
import KeyRelay.Proofs.Adapter.Lifecycle
import KeyRelay.Proofs.Adapter.Mirrors
import KeyRelay.Proofs.Adapter.Progress
import KeyRelay.Proofs.Adapter.Return
import KeyRelay.Proofs.Adapter.Steps
import KeyRelay.Proofs.Adapter.Watchers
import KeyRelay.Proofs.Assembly.Aftermath
import KeyRelay.Proofs.Assembly.Chronicle
import KeyRelay.Proofs.Assembly.Concord
import KeyRelay.Proofs.Assembly.Deeds
import KeyRelay.Proofs.Assembly.Delivery
import KeyRelay.Proofs.Assembly.Independence
import KeyRelay.Proofs.Assembly.Interruption
import KeyRelay.Proofs.Assembly.ListThenWatch
import KeyRelay.Proofs.Assembly.Records
import KeyRelay.Proofs.Assembly.Sharing
import KeyRelay.Proofs.Assembly.Steps
import KeyRelay.Proofs.Conduit.Handover
import KeyRelay.Proofs.Conduit.Order
import KeyRelay.Proofs.Conduit.Sends
import KeyRelay.Proofs.Counter.Race
import KeyRelay.Proofs.Feed
import KeyRelay.Proofs.Feed.Accounts
import KeyRelay.Proofs.Feed.Contents
import KeyRelay.Proofs.Feed.Independence
import KeyRelay.Proofs.Feed.Reading
import KeyRelay.Proofs.Json.Lexeme
import KeyRelay.Proofs.Json.RoundTrip
import KeyRelay.Proofs.KeyValue.RoundTrip
import KeyRelay.Proofs.Reduction.Batches
import KeyRelay.Proofs.Reduction.Freshness
import KeyRelay.Proofs.Reduction.Gaps
import KeyRelay.Proofs.Reduction.History
import KeyRelay.Proofs.Reduction.Interruption
import KeyRelay.Proofs.Reduction.Lineage
import KeyRelay.Proofs.Reduction.Payloads
import KeyRelay.Proofs.Reduction.Provenance
import KeyRelay.Proofs.Reduction.Reached
import KeyRelay.Proofs.Reduction.Relabelling
import KeyRelay.Proofs.Reduction.Replay
import KeyRelay.Proofs.Reduction.Tombstones
import KeyRelay.Proofs.Reduction.Weighing
import KeyRelay.Proofs.Run.Ending
import KeyRelay.Proofs.Run.Reception
import KeyRelay.Proofs.Run.Refinement
import KeyRelay.Proofs.Store
import KeyRelay.Proofs.Store.Edits
import KeyRelay.Record
import KeyRelay.Reduction
import KeyRelay.Run
import KeyRelay.Session
import KeyRelay.Store
import KeyRelay.Text.Duration
import KeyRelay.Text.Hidden
import KeyRelay.Text.Literal
import KeyRelay.Text.Place
import KeyRelay.Text.Quoted
import KeyRelay.Version
