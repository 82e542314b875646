import SeriesQuery.Document.Config
import SeriesQuery.Document.Query
import SeriesQuery.Document.Time
import SeriesQuery.Proofs.Conformance
import SeriesQuery.Proofs.Decimal.Order
import SeriesQuery.Proofs.Decimal.Rounding
import SeriesQuery.Proofs.Decimal.Sign
import SeriesQuery.Proofs.Decimal.Size
import SeriesQuery.Proofs.Derivation.Counter
import SeriesQuery.Proofs.Derivation.Delta
import SeriesQuery.Proofs.Derivation.Rate
import SeriesQuery.Proofs.Derivation.Successive
import SeriesQuery.Proofs.Document.RoundTrip
import SeriesQuery.Proofs.Expr.Agreement
import SeriesQuery.Proofs.Expr.Arithmetic
import SeriesQuery.Proofs.Expr.Columns
import SeriesQuery.Proofs.Expr.Demand
import SeriesQuery.Proofs.Expr.Exact
import SeriesQuery.Proofs.Expr.Leaves
import SeriesQuery.Proofs.Expr.Nulls
import SeriesQuery.Proofs.Expr.Returns
import SeriesQuery.Proofs.Expr.Shortcut
import SeriesQuery.Proofs.Expr.Soundness
import SeriesQuery.Proofs.Merge.Chronological
import SeriesQuery.Proofs.Merge.Cursor
import SeriesQuery.Proofs.Merge.Nested
import SeriesQuery.Proofs.Merge.Relation
import SeriesQuery.Proofs.Merge.Resumption
import SeriesQuery.Proofs.Merge.Rows
import SeriesQuery.Proofs.Merge.Single
import SeriesQuery.Proofs.Merge.Slots
import SeriesQuery.Proofs.Outcome
import SeriesQuery.Proofs.Query.Chronological
import SeriesQuery.Proofs.Query.Conformance
import SeriesQuery.Proofs.Query.Execution
import SeriesQuery.Proofs.Query.Fusion
import SeriesQuery.Proofs.Query.Join
import SeriesQuery.Proofs.Query.Nested
import SeriesQuery.Proofs.Query.Offenders
import SeriesQuery.Proofs.Query.Protocol
import SeriesQuery.Proofs.Query.Ranges
import SeriesQuery.Proofs.Query.Schema
import SeriesQuery.Proofs.Query.Sessions
import SeriesQuery.Proofs.Query.SingleInput
import SeriesQuery.Proofs.Query.Slices
import SeriesQuery.Proofs.Query.SumOrder
import SeriesQuery.Proofs.Query.Typed
import SeriesQuery.Proofs.Reduction.Extremes
import SeriesQuery.Proofs.Reduction.Refusals
import SeriesQuery.Proofs.Resample.Align
import SeriesQuery.Proofs.Resample.Disorder
import SeriesQuery.Proofs.Resample.GapFill
import SeriesQuery.Proofs.Resample.Idempotence
import SeriesQuery.Proofs.Resample.Limit
import SeriesQuery.Proofs.Resample.Progress
import SeriesQuery.Proofs.Resample.Weights
import SeriesQuery.Proofs.Rowset.Chronological
import SeriesQuery.Proofs.Rowset.Conforming
import SeriesQuery.Proofs.Rowset.Faultless
import SeriesQuery.Proofs.Rowset.Series
import SeriesQuery.Proofs.Rowset.TypeSafe
import SeriesQuery.Proofs.Store.Atomicity
import SeriesQuery.Proofs.Store.Logs
import SeriesQuery.Proofs.Store.Operations
import SeriesQuery.Proofs.Store.Ranges
import SeriesQuery.Proofs.Store.Scan
import SeriesQuery.Proofs.Store.StableSort
import SeriesQuery.Proofs.Stream.Always
import SeriesQuery.Proofs.Stream.Answers
import SeriesQuery.Proofs.Stream.Chronological
import SeriesQuery.Proofs.Text.Integer
import SeriesQuery.Proofs.Time.Buckets
import SeriesQuery.Proofs.Time.Calendar
import SeriesQuery.Proofs.Time.Elapsed
import SeriesQuery.Proofs.Time.Grid
import SeriesQuery.Proofs.Time.Numbering
import SeriesQuery.Proofs.Time.Order
import SeriesQuery.Query.Traversal
import SeriesQuery.Source.Execute
import SeriesQuery.Store.Basic
