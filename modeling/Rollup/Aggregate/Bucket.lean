import Rollup.Aggregate.FieldStats
import Rollup.Spec.Basic
import Rollup.Value.Path

/-!
# Buckets

A bucket is the key that its documents share and a `Tally` of them: the statistics of every field
that the spec names, and the number of documents if the spec asks for it. Folding a document changes
the tally only.
-/

namespace Rollup

/-- What is accumulated over the documents of a bucket. -/
structure Tally where
  /-- The statistics of each field. -/
  stats : SortedMap FieldStats := .empty
  /-- The number of documents, if it is asked for. A counter of 64 bits holds the same number, as no
  list in memory has `2 ^ 64` documents. -/
  total : Nat := 0
deriving DecidableEq

namespace Tally

/-- The tally of no documents. -/
def empty : Tally := {}

/-- Takes one field of a document into the statistics; an absent field or a null leaves them as they
are. -/
def observeField (data : Value) (stats : SortedMap FieldStats) (field : String) :
    SortedMap FieldStats :=
  let old := (stats.find? field).getD .empty
  stats.insert field <|
    match data.resolvePresent? field with
    | some value => old.observe value
    | none => old

/-- Takes one document into the tally. -/
def fold (spec : Spec) (tally : Tally) (data : Value) : Tally where
  stats := spec.stats.keys.foldl (observeField data) tally.stats
  total := if spec.total then tally.total + 1 else tally.total

end Tally

/-- A group of documents. -/
structure Bucket where
  /-- The tuple of values that the documents share; the bucket of all documents has none. -/
  key : Option (List Value)
  /-- What is accumulated over the documents. -/
  tally : Tally := .empty
deriving DecidableEq

namespace Bucket

/-- The bucket of all documents, before any. -/
def overall : Bucket where
  key := none

/-- The bucket of a group, before any document. -/
def keyed (key : List Value) : Bucket where
  key := some key

/-- Takes one document into the bucket. -/
def fold (spec : Spec) (bucket : Bucket) (data : Value) : Bucket :=
  { bucket with tally := bucket.tally.fold spec data }

/-- The result record of a bucket with all its statistics: its key if it has one, the statistics if
any are requested, and the total if it is asked for. -/
def toRecord (spec : Spec) (bucket : Bucket) : Value :=
  .object <| List.filterMap id [
    bucket.key.map fun key => ("key", .array key),
    if spec.stats.isEmpty then none
    else some ("stats", .object (bucket.tally.stats.entries.map fun (field, stats) =>
      (field, stats.toValue))),
    if spec.total then some ("total", .nat bucket.tally.total) else none]

end Bucket

end Rollup
