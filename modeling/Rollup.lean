import Rollup.Command.Run
import Rollup.Main
import Rollup.Proofs.Aggregate.AdjacentRanges
import Rollup.Proofs.Aggregate.BucketTable
import Rollup.Proofs.Aggregate.ClauseKey
import Rollup.Proofs.Aggregate.Extreme
import Rollup.Proofs.Aggregate.Failure
import Rollup.Proofs.Aggregate.FieldStats
import Rollup.Proofs.Aggregate.Folding
import Rollup.Proofs.Aggregate.Grouping
import Rollup.Proofs.Aggregate.IntervalGrid
import Rollup.Proofs.Aggregate.IntervalOverflow
import Rollup.Proofs.Aggregate.NumberSpelling
import Rollup.Proofs.Aggregate.Paging
import Rollup.Proofs.Aggregate.Projection
import Rollup.Proofs.Aggregate.Pruning
import Rollup.Proofs.Aggregate.ReadPaths
import Rollup.Proofs.Aggregate.Record
import Rollup.Proofs.Aggregate.RecordPart
import Rollup.Proofs.Aggregate.RecordShape
import Rollup.Proofs.Aggregate.Reordering
import Rollup.Proofs.Aggregate.RollUp
import Rollup.Proofs.Aggregate.RunningSum
import Rollup.Proofs.Aggregate.SafeSum
import Rollup.Proofs.Aggregate.SortPath
import Rollup.Proofs.Aggregate.TableIndex
import Rollup.Proofs.Aggregate.Tally
import Rollup.Proofs.Binary64.Accuracy
import Rollup.Proofs.Binary64.Decimal
import Rollup.Proofs.Binary64.Monotone
import Rollup.Proofs.Binary64.Overflow
import Rollup.Proofs.Binary64.Rounding
import Rollup.Proofs.Binary64.Shortest
import Rollup.Proofs.Binary64.Text
import Rollup.Proofs.DistinctItems
import Rollup.Proofs.Documents.JsonLines
import Rollup.Proofs.Documents.StandardInput
import Rollup.Proofs.Entries
import Rollup.Proofs.Json.Numeral
import Rollup.Proofs.Json.OneLine
import Rollup.Proofs.Json.Opening
import Rollup.Proofs.Json.Quoted
import Rollup.Proofs.Json.Scalar
import Rollup.Proofs.Report.Alignment
import Rollup.Proofs.Report.LeafColumns
import Rollup.Proofs.Report.ResultDocument
import Rollup.Proofs.Report.SummaryLine
import Rollup.Proofs.Report.TableLines
import Rollup.Proofs.Sorting.Merge
import Rollup.Proofs.Sorting.SortKey
import Rollup.Proofs.Sorting.Stability
import Rollup.Proofs.Spec.CompactClause
import Rollup.Proofs.Spec.FieldlessClause
import Rollup.Proofs.Spec.FirstFault
import Rollup.Proofs.Spec.Grammar
import Rollup.Proofs.Spec.InlineSpec
import Rollup.Proofs.Spec.MemberOrder
import Rollup.Proofs.Spec.Reading
import Rollup.Proofs.Spec.Slots
import Rollup.Proofs.Spec.Spelling
import Rollup.Proofs.Text.Digits
import Rollup.Proofs.Text.Lines
import Rollup.Proofs.Text.Marks
import Rollup.Proofs.Traversal
import Rollup.Proofs.Value.CanonicalKey
import Rollup.Proofs.Value.CanonicalNumber
import Rollup.Proofs.Value.Flatten
import Rollup.Proofs.Value.IntegerArithmetic
import Rollup.Proofs.Value.LeafPath
import Rollup.Proofs.Value.NormalForm
import Rollup.Proofs.Value.Number
import Rollup.Proofs.Value.NumberOrder
import Rollup.Proofs.Value.Path
import Rollup.Proofs.Value.Respelling
import Rollup.Proofs.Value.RoundedOrder
import Rollup.Proofs.Value.SignOfZero
