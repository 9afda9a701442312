import Newswire.Archive
import Newswire.Collection.Filter
import Newswire.Collection.IdSet
import Newswire.Collection.Keyed
import Newswire.Collection.Table
import Newswire.Command.Line
import Newswire.Command.Option
import Newswire.Command.Report
import Newswire.Desk.Basic
import Newswire.Desk.Bundle
import Newswire.Desk.Maintenance
import Newswire.Desk.Verdicts
import Newswire.Distribution
import Newswire.Item
import Newswire.Json.Basic
import Newswire.Json.Draft
import Newswire.Json.Path
import Newswire.Json.Printer
import Newswire.Json.Reader
import Newswire.Main
import Newswire.Number.Double
import Newswire.Number.Extended
import Newswire.Number.Shortest
import Newswire.Query.Matcher
import Newswire.Query.Search
import Newswire.Query.Search.Matching
import Newswire.Query.Store
import Newswire.Query.Store.Matching
import Newswire.Query.Target
import Newswire.Rule.Basic
import Newswire.Rule.Comparison
import Newswire.Rule.Condition
import Newswire.Rule.Error
import Newswire.Rule.Evaluation
import Newswire.Rule.Operator
import Newswire.Rule.Order
import Newswire.Rule.Overlap
import Newswire.Rulebook.Basic
import Newswire.Rulebook.Dependents
import Newswire.Schema
import Newswire.Settings.Basic
import Newswire.Settings.Layers
import Newswire.Settings.Place
import Newswire.Settings.Toml.Reader
import Newswire.Settings.Toml.Scalar
import Newswire.Settings.Toml.Tree
import Newswire.Settings.Value
import Newswire.Text.Blank
import Newswire.Text.CaseFold
import Newswire.Text.Digits
import Newswire.Text.Glob
import Newswire.Text.Pattern
import Newswire.Timestamp
import Newswire.Wire.Bundle
import Newswire.Wire.Decoder
import Newswire.Wire.Distribution
import Newswire.Wire.Rules
import Newswire.Wire.Settings
import Newswire.Proofs.Text.Literal
import Newswire.Proofs.Text.Caseless
import Newswire.Proofs.Number.Reading
import Newswire.Proofs.Rule.Value
import Newswire.Proofs.Json.Path
import Newswire.Proofs.Json.FanOut
import Newswire.Proofs.Query.Decision
import Newswire.Proofs.Rule.Comparison
import Newswire.Proofs.Rulebook.Walk
import Newswire.Proofs.Query.Store
import Newswire.Proofs.Query.Search
import Newswire.Proofs.Query.Wildcard
import Newswire.Proofs.Query.Agreement
import Newswire.Proofs.Rulebook.Graph
import Newswire.Proofs.Rulebook.Upkeep
import Newswire.Proofs.Desk.Runs
import Newswire.Proofs.Desk.Integrity
import Newswire.Proofs.Desk.Verdicts
import Newswire.Proofs.Desk.Judging
import Newswire.Proofs.Desk.Memory
import Newswire.Proofs.Query.Documents
import Newswire.Proofs.Query.Tags
import Newswire.Proofs.Desk.Deletion
import Newswire.Proofs.Rulebook.Exactness
import Newswire.Proofs.Rulebook.Versions
import Newswire.Proofs.Rulebook.Admission
import Newswire.Proofs.Rulebook.Lineage
import Newswire.Proofs.Query.Compilation
import Newswire.Proofs.Rulebook.Threading
import Newswire.Proofs.Rulebook.Circles
import Newswire.Proofs.Rulebook.Inlining
import Newswire.Proofs.Desk.Failure
import Newswire.Proofs.Query.Execution
import Newswire.Proofs.Desk.Vocabulary
import Newswire.Proofs.Desk.Usage
import Newswire.Proofs.Desk.Inlining
import Newswire.Proofs.Desk.Bundle
import Newswire.Proofs.Desk.Loading
import Newswire.Proofs.Desk.Held
import Newswire.Proofs.Desk.Batch
import Newswire.Proofs.Desk.Serving
import Newswire.Proofs.Desk.Impact
import Newswire.Proofs.Desk.Inquiry
import Newswire.Proofs.Wire.Reading
import Newswire.Proofs.Wire.RoundTrip
import Newswire.Proofs.Rule.Arrangement
import Newswire.Proofs.Rule.Deadlock
import Newswire.Proofs.Rule.Overlap
import Newswire.Proofs.Rulebook.References
import Newswire.Proofs.Desk.Reach
import Newswire.Proofs.Text.Wildcard
