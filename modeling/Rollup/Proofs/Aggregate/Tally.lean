import Rollup.Aggregate.Bucket
import Rollup.Proofs.Aggregate.FieldStats
import Rollup.Proofs.Entries

/-!
# What a tally holds

Folding documents into a tally treats every field on its own: the statistics of a field of the spec
are those of the values that the documents have there, nulls left out, and no other field is
touched. The total counts the documents if the spec asks for it.
-/

namespace Rollup

/-- The values that are present at a path in some data, in order. -/
def valuesAt (path : String) (data : List Value) : List Value :=
  data.filterMap fun value => value.resolvePresent? path

theorem valuesAt_cons (path : String) (value : Value) (data : List Value) :
    valuesAt path (value :: data) = (value.resolvePresent? path).toList ++ valuesAt path data := by
  rw [valuesAt, List.filterMap_cons]
  cases value.resolvePresent? path <;> rfl

namespace Tally

variable (spec : Spec)

/-- Taking in one field sets the statistics of that field. -/
theorem find?_observeField (data : Value) (stats : SortedMap FieldStats) (field name : String) :
    (observeField data stats field).find? name =
      if name = field then
        some ((data.resolvePresent? field).toList.foldl FieldStats.observe
          ((stats.find? field).getD .empty))
      else stats.find? name := by
  rw [observeField, SortedMap.find?_insert]
  cases data.resolvePresent? field <;> rfl

/-- Taking in several fields sets the statistics of each of them once. -/
theorem find?_foldl_observeField (data : Value) {fields : List String} (hnodup : fields.Nodup)
    (stats : SortedMap FieldStats) (name : String) :
    (fields.foldl (observeField data) stats).find? name =
      if name ∈ fields then
        some ((data.resolvePresent? name).toList.foldl FieldStats.observe
          ((stats.find? name).getD .empty))
      else stats.find? name := by
  induction fields generalizing stats with
  | nil => simp
  | cons field fields ih =>
    obtain ⟨hnew, hfields⟩ := List.nodup_cons.mp hnodup
    rw [List.foldl_cons, ih hfields, find?_observeField]
    by_cases hname : name = field
    · subst hname
      simp [hnew]
    · simp [hname]

/-- A document changes the statistics of the fields of the spec, each by what it has there. -/
theorem find?_fold (tally : Tally) (data : Value) (field : String) :
    (tally.fold spec data).stats.find? field =
      if field ∈ spec.stats.keys then
        some ((data.resolvePresent? field).toList.foldl FieldStats.observe
          ((tally.stats.find? field).getD .empty))
      else tally.stats.find? field :=
  find?_foldl_observeField data spec.stats.nodup_keys tally.stats field

/-- Documents change the statistics of the fields of the spec, each by all that they have there. -/
theorem find?_foldl_fold (tally : Tally) (data : List Value) (field : String) :
    (data.foldl (fold spec) tally).stats.find? field =
      if field ∈ spec.stats.keys ∧ data ≠ [] then
        some ((valuesAt field data).foldl FieldStats.observe
          ((tally.stats.find? field).getD .empty))
      else tally.stats.find? field := by
  induction data generalizing tally with
  | nil => simp
  | cons value data ih =>
    rw [List.foldl_cons, ih, find?_fold, valuesAt_cons, List.foldl_append]
    by_cases hfield : field ∈ spec.stats.keys
    · by_cases hdata : data = []
      · subst hdata
        simp [hfield, valuesAt]
      · simp [hfield, hdata]
    · simp [hfield]

theorem total_fold (tally : Tally) (data : Value) :
    (tally.fold spec data).total = if spec.total then tally.total + 1 else tally.total := rfl

/-- Documents add their number to the total if the spec asks for it. -/
theorem total_foldl_fold (tally : Tally) (data : List Value) :
    (data.foldl (fold spec) tally).total =
      if spec.total then tally.total + data.length else tally.total := by
  induction data generalizing tally with
  | nil => simp
  | cons value data ih =>
    rw [List.foldl_cons, ih, total_fold, List.length_cons]
    split
    · rw [Nat.add_right_comm, Nat.add_assoc]
    · rfl

/-- The tally of some documents. -/
def ofData (data : List Value) : Tally :=
  data.foldl (fold spec) .empty

/-- The statistics of a field in the tally of some documents are those of what they have there. -/
theorem find?_ofData (data : List Value) (field : String) :
    (ofData spec data).stats.find? field =
      if field ∈ spec.stats.keys ∧ data ≠ [] then some (.ofValues (valuesAt field data))
      else none :=
  find?_foldl_fold spec .empty data field

theorem total_ofData (data : List Value) :
    (ofData spec data).total = if spec.total then data.length else 0 := by
  rw [ofData, total_foldl_fold]
  split
  · exact Nat.zero_add _
  · rfl

end Tally

/-- Folding documents into a bucket folds them into its tally. -/
theorem Bucket.foldl_fold (spec : Spec) (bucket : Bucket) (data : List Value) :
    data.foldl (Bucket.fold spec) bucket =
      { bucket with tally := data.foldl (Tally.fold spec) bucket.tally } := by
  induction data generalizing bucket with
  | nil => rfl
  | cons value data ih => exact ih (bucket.fold spec value)

end Rollup
