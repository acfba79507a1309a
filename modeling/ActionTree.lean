import ActionTree.Text.Alphanumeric
import ActionTree.Text.Blank
import ActionTree.Text.Cut
import ActionTree.Text.Hex
import ActionTree.Text.Mark
import ActionTree.Binary64
import ActionTree.Decimal.Layout
import ActionTree.Json.Reader
import ActionTree.Json.Printer
import ActionTree.Expr.Parser
import ActionTree.Expr.Eval
import ActionTree.Action.Document
import ActionTree.Run.Outcome
import ActionTree.Example
import ActionTree.Session
import ActionTree.Settings.Toml.Moment
import ActionTree.Settings.Toml.Value
import ActionTree.Settings.Load
import ActionTree.Settings.Standard
import ActionTree.DotEnv
import ActionTree.Pattern.Basic
import ActionTree.Pattern.Reader
import ActionTree.LogFilter
import ActionTree.CommandLine.Run
import ActionTree.CommandLine.LogLine
import ActionTree.Main
import ActionTree.Proofs.Binary64
import ActionTree.Proofs.Decimal
import ActionTree.Proofs.Expr.Grammar
import ActionTree.Proofs.Expr.Heights
import ActionTree.Proofs.Expr.Parsing
import ActionTree.Proofs.Expr.Scanning
import ActionTree.Proofs.Expr.Reading
import ActionTree.Proofs.Expr.Nesting
import ActionTree.Proofs.Expr.Scanner
import ActionTree.Proofs.Expr.Descent
import ActionTree.Proofs.Expr.Bounds
import ActionTree.Proofs.Expr.Variables
import ActionTree.Proofs.Expr.Visits
import ActionTree.Proofs.Expr.Locality
import ActionTree.Proofs.Expr.Enclosing
import ActionTree.Proofs.Expr.Printing
import ActionTree.Proofs.Expr.Comparison
import ActionTree.Proofs.Expr.Equality
import ActionTree.Proofs.Expr.Access
import ActionTree.Proofs.Expr.Paths
import ActionTree.Proofs.Action.RoundTrip
import ActionTree.Proofs.Run.Course
import ActionTree.Proofs.Run.Steps
import ActionTree.Proofs.Run.Change
import ActionTree.Proofs.Run.Form
import ActionTree.Proofs.Run.Failure
import ActionTree.Proofs.Run.Spacing
import ActionTree.Proofs.Run.Cancellation
import ActionTree.Proofs.Run.Verdict
import ActionTree.Proofs.Run.Noninterference
import ActionTree.Proofs.Action.Faults
import ActionTree.Proofs.Action.NormalForm
import ActionTree.Proofs.Action.Places
import ActionTree.Proofs.Action.Counts
import ActionTree.Proofs.Run.Origin
import ActionTree.Proofs.Run.Accounts
import ActionTree.Proofs.Run.Deliveries
import ActionTree.Proofs.Run.Reports
import ActionTree.Proofs.Run.Trace
import ActionTree.Proofs.Run.Notifiers
import ActionTree.Proofs.Run.Discretion
import ActionTree.Proofs.Run.Splitting
import ActionTree.Proofs.Run.Nest
import ActionTree.Proofs.Settings.Laws
import ActionTree.Proofs.Settings.Standard
import ActionTree.Proofs.Settings.Loading
import ActionTree.Proofs.Settings.FilterText
