import Rollup.Aggregate.BucketTable
import Rollup.Aggregate.GroupKey
import Rollup.Aggregate.Record
import Rollup.Sorting.SortKey
import Rollup.Spec.Validity

/-!
# Evaluation

Documents are folded one after another into the buckets that their group keys choose, and the
buckets are turned into records: sorted, cut to a page, pruned. One document that cannot be grouped
fails the whole evaluation.
-/

namespace Rollup

/-- A document: the members of an object. -/
structure Document where
  /-- The members. -/
  members : List (String × Value)
deriving DecidableEq

namespace Document

/-- The document as a value. -/
def data (document : Document) : Value :=
  .object document.members

/-- Only an object is a document; any other value is handed back. -/
def ofValue : Value → Except Value Document
  | .object members => .ok ⟨members⟩
  | other => .error other

end Document

/-- How results are presented. -/
structure EvalOptions where
  /-- The keys that records are sorted by. -/
  sort : List SortKey := []
  /-- How many records are left out at the start. -/
  skip : Nat := 0
  /-- How many records are kept at most; zero means no limit. -/
  limit : Option Nat := none
  /-- Whether the number of buckets, or of documents without a grouping, is reported. -/
  total : Bool := false
deriving DecidableEq

/-- The result of an evaluation. -/
inductive EvalResult where
  /-- One record over all documents, and the number of documents if it is asked for. -/
  | overall (record : Value) (total : Option Nat)
  /-- A record per bucket, and the number of buckets before paging if it is asked for. -/
  | grouped (records : List Value) (total : Option Nat)
deriving DecidableEq

namespace EvalResult

/-- The number of buckets or of documents, if it is reported. -/
def total : EvalResult → Option Nat
  | overall _ total => total
  | grouped _ total => total

/-- The records of a result. -/
def records : EvalResult → List Value
  | overall record _ => [record]
  | grouped records _ => records

/-- The result as one value. With a total it is wrapped, so that the total is not taken for that of
a record. -/
def toValue : EvalResult → Value
  | overall record none => record
  | overall record (some total) => .object [("result", record), ("total", .nat total)]
  | grouped records none => .array records
  | grouped records (some total) => .object [("results", .array records), ("total", .nat total)]

end EvalResult

namespace EvalOptions

/-- The records of one page. -/
def page (options : EvalOptions) (records : List Value) : List Value :=
  let rest := records.drop options.skip
  match options.limit with
  | some (n + 1) => rest.take (n + 1)
  | _ => rest

/-- A count, if the options ask for it. -/
def report (options : EvalOptions) (count : Nat) : Option Nat :=
  if options.total then some count else none

end EvalOptions

/-- The records of buckets, sorted by all their statistics, then cut to a page, then pruned. -/
def shapeRecords (spec : Spec) (options : EvalOptions) (buckets : List Bucket) : List Value :=
  let records := sortRecords options.sort (buckets.map (Bucket.toRecord spec))
  (options.page records).map spec.prune

/-- Takes one document into the table of buckets. -/
def groupDocument (spec : Spec) (clauses : List Clause) (table : BucketTable)
    (document : Document) : Except EvalError BucketTable := do
  let key ← groupKey document.data clauses
  return table.modify key fun tally => tally.fold spec document.data

/-- The buckets of documents, in the order in which their keys come up. -/
def groupDocuments (spec : Spec) (clauses : List Clause) (documents : List Document) :
    Except EvalError BucketTable :=
  documents.foldlM (groupDocument spec clauses) .empty

/-- The pruned record over all documents; without documents it is empty. -/
def overallRecord (spec : Spec) (documents : List Document) : Value :=
  match documents with
  | [] => .object []
  | documents =>
    let bucket :=
      documents.foldl (fun bucket document => bucket.fold spec document.data) Bucket.overall
    spec.prune (bucket.toRecord spec)

/-- Evaluates a spec over documents. -/
def evaluate (documents : List Document) (spec : Spec) (options : EvalOptions) :
    Except EvalError EvalResult := do
  spec.validate.mapError .malformedSpec
  match spec.groupBy with
  | none => return .overall (overallRecord spec documents) (options.report documents.length)
  | some clauses =>
    let table ← groupDocuments spec clauses documents
    return .grouped (shapeRecords spec options table.toList) (options.report table.size)

end Rollup
