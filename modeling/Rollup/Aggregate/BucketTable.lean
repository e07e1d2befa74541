import Std.Data.TreeMap.Basic
import Rollup.Aggregate.Bucket
import Rollup.Value.CanonicalKey

/-!
# Bucket tables

A `BucketTable` holds buckets in the order in which their keys first came up, and an index from
canonical keys to positions.
-/

namespace Rollup

/-- Buckets by the canonical form of their keys, in the order of their creation. -/
structure BucketTable where
  /-- The position of the bucket with a canonical key. -/
  index : Std.TreeMap String Nat := ∅
  /-- The buckets, the first created first. -/
  buckets : Array Bucket := #[]

namespace BucketTable

/-- The table without buckets. -/
def empty : BucketTable := {}

/-- The number of buckets. -/
def size (table : BucketTable) : Nat :=
  table.buckets.size

/-- Whether there are no buckets. -/
def isEmpty (table : BucketTable) : Bool :=
  table.buckets.isEmpty

/-- The table with a bucket for a key, made if there is none, and the position of that bucket. -/
def touch (table : BucketTable) (key : List Value) : BucketTable × Nat :=
  let canonical := Value.canonicalKey key
  match table.index[canonical]? with
  | some position => (table, position)
  | none =>
    let position := table.buckets.size
    ({ index := table.index.insert canonical position
       buckets := table.buckets.push (.keyed key) }, position)

/-- Changes the tally of the bucket for a key, which is made if there is none. -/
def modify (table : BucketTable) (key : List Value) (change : Tally → Tally) : BucketTable :=
  let (table, position) := table.touch key
  { table with
    buckets := table.buckets.modify position fun bucket =>
      { bucket with tally := change bucket.tally } }

/-- The bucket for a key. -/
def find? (table : BucketTable) (key : List Value) : Option Bucket :=
  table.index[Value.canonicalKey key]?.bind fun position => table.buckets[position]?

/-- The buckets in the order of their creation. -/
def toList (table : BucketTable) : List Bucket :=
  table.buckets.toList

end BucketTable

end Rollup
