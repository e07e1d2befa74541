import Rollup.Proofs.Aggregate.Tally

/-!
# Folding field by field

Folding documents into a bucket takes every field of the spec on its own. What becomes of the bucket
is said without going through the documents one after another (`Bucket.FoldsTo`): the statistics of
a field have observed what the documents have there, whichever other fields the spec lists.
-/

namespace Rollup

/-- The values that are present at a path are those that data have there, nulls left out. -/
theorem valuesAt_eq_filter (path : String) (data : List Value) :
    valuesAt path data =
      (data.filterMap fun value => value.resolve? path).filter fun part => !part.isNull :=
  List.filter_filterMap.symm

/-- What folding data into a bucket comes to. -/
structure Bucket.FoldsTo (spec : Spec) (data : List Value) (bucket folded : Bucket) : Prop where
  /-- The key stays. -/
  key : folded.key = bucket.key
  /-- The total grows by the number of data if it is asked for, and not at all otherwise. -/
  total : folded.tally.total = bucket.tally.total + if spec.total then data.length else 0
  /-- As soon as there are data, each field of the spec has statistics: those from before, or else
  empty ones, after observing what the data have there, in order and without nulls. -/
  observed : ∀ field ∈ spec.stats.keys, data ≠ [] →
    folded.tally.stats.find? field = some
      (((data.filterMap fun value => value.resolve? field).filter fun part => !part.isNull).foldl
        FieldStats.observe ((bucket.tally.stats.find? field).getD .empty))
  /-- The statistics of other fields stay, and without data those of all fields. -/
  untouched : ∀ field, field ∉ spec.stats.keys ∨ data = [] →
    folded.tally.stats.find? field = bucket.tally.stats.find? field

section Folding

variable {spec : Spec} {data : List Value} {bucket folded : Bucket}

/-- Folding data one after another comes to this. -/
theorem Bucket.foldsTo_foldl (spec : Spec) (data : List Value) (bucket : Bucket) :
    bucket.FoldsTo spec data (data.foldl (Bucket.fold spec) bucket) where
  key := by rw [Bucket.foldl_fold]
  total := by
    rw [Bucket.foldl_fold, Tally.total_foldl_fold]
    split <;> rfl
  observed field hfield hdata := by
    rw [Bucket.foldl_fold, Tally.find?_foldl_fold, if_pos ⟨hfield, hdata⟩, valuesAt_eq_filter]
  untouched field hout := by
    have hnot : ¬ (field ∈ spec.stats.keys ∧ data ≠ []) := by
      rwa [not_and_or, not_ne_iff]
    rw [Bucket.foldl_fold, Tally.find?_foldl_fold, if_neg hnot]

/-- There is only one bucket that folding data into a bucket comes to. -/
theorem Bucket.FoldsTo.unique {other : Bucket} (h : bucket.FoldsTo spec data folded)
    (hother : bucket.FoldsTo spec data other) : folded = other := by
  have hstats : folded.tally.stats = other.tally.stats := by
    apply SortedMap.ext_find?
    intro field
    by_cases hfield : field ∈ spec.stats.keys
    · by_cases hdata : data = []
      · rw [h.untouched field (Or.inr hdata), hother.untouched field (Or.inr hdata)]
      · rw [h.observed field hfield hdata, hother.observed field hfield hdata]
    · rw [h.untouched field (Or.inl hfield), hother.untouched field (Or.inl hfield)]
  have hkey := h.key.trans hother.key.symm
  have htotal := h.total.trans hother.total.symm
  obtain ⟨key, stats, total⟩ := folded
  obtain ⟨otherKey, otherStats, otherTotal⟩ := other
  subst hkey hstats htotal
  rfl

/-- What folding data comes to at a field does not depend on the other fields of the spec, nor on
whether documents are counted. -/
theorem Bucket.FoldsTo.find?_eq {otherSpec : Spec} {other : Bucket}
    (h : bucket.FoldsTo spec data folded) (hother : bucket.FoldsTo otherSpec data other)
    {field : String} (hfield : field ∈ spec.stats.keys ↔ field ∈ otherSpec.stats.keys) :
    folded.tally.stats.find? field = other.tally.stats.find? field := by
  by_cases hlisted : field ∈ spec.stats.keys ∧ data ≠ []
  · obtain ⟨hmem, hdata⟩ := hlisted
    rw [h.observed field hmem hdata, hother.observed field (hfield.mp hmem) hdata]
  · rw [not_and_or, not_ne_iff] at hlisted
    rw [h.untouched field hlisted, hother.untouched field (hlisted.imp_left (mt hfield.mpr))]

end Folding

/-- Folding data into a bucket keeps its key, counts the data if that is asked for, lets each field
of the spec observe what the data have there, and touches no other field; nothing else comes of it.
Two specs that both list a field, or both do not, leave the same statistics of it. -/
theorem Bucket.foldsTo_iff_and_find?_eq (spec : Spec) (data : List Value) (bucket : Bucket) :
    (∀ folded, bucket.FoldsTo spec data folded ↔ folded = data.foldl (Bucket.fold spec) bucket) ∧
      ∀ (otherSpec : Spec) (field : String),
        (field ∈ spec.stats.keys ↔ field ∈ otherSpec.stats.keys) →
        (data.foldl (Bucket.fold spec) bucket).tally.stats.find? field =
          (data.foldl (Bucket.fold otherSpec) bucket).tally.stats.find? field := by
  have hfolds := Bucket.foldsTo_foldl spec data bucket
  constructor
  · intro folded
    constructor
    · exact fun h => h.unique hfolds
    · rintro rfl
      exact hfolds
  · intro otherSpec field hfield
    exact hfolds.find?_eq (Bucket.foldsTo_foldl otherSpec data bucket) hfield

/-- A bucket of cats that has observed one age. -/
def catsSoFar : Bucket where
  key := some [.string "cat"]
  tally := { stats := SortedMap.empty.insert "age" (.ofValues [.int 7]), total := 1 }

/-- Data with ages of several kinds and with none, some of them no objects. -/
def strayData : List Value := [
  .object [("age", .int 5), ("weight", .int 4)],
  .null,
  .array [.int 3],
  .object [("age", .null), ("weight", .string "light")],
  .object [("age", .string "old")]]

/-- How many ages there are. -/
def ageValues : Spec where
  stats := SortedMap.empty.insert "age" (StatSet.ofList [.count])

/-- How many ages, weights and data there are. -/
def ageAndWeightValues : Spec where
  stats := ageValues.stats.insert "weight" (StatSet.ofList [.count])
  total := true

/-- Stray data leave the same ages whether weights and data are counted or not. -/
theorem Bucket.foldsTo_strayData_and_find?_eq :
    ("age" ∈ ageValues.stats.keys ↔ "age" ∈ ageAndWeightValues.stats.keys) ∧
    catsSoFar.FoldsTo ageValues strayData (strayData.foldl (Bucket.fold ageValues) catsSoFar) ∧
    (strayData.foldl (Bucket.fold ageValues) catsSoFar).tally.stats.find? "age" =
      (strayData.foldl (Bucket.fold ageAndWeightValues) catsSoFar).tally.stats.find? "age" := by
  have hage : "age" ∈ ageValues.stats.keys ↔ "age" ∈ ageAndWeightValues.stats.keys := by
    decide +kernel
  have h := Bucket.foldsTo_iff_and_find?_eq ageValues strayData catsSoFar
  exact ⟨hage, (h.1 _).mpr rfl, h.2 _ _ hage⟩

example :
    let folded := strayData.foldl (Bucket.fold ageAndWeightValues) catsSoFar
    folded.tally.total = 6 ∧
      (folded.tally.stats.find? "age").map FieldStats.count = some 3 ∧
      (folded.tally.stats.find? "weight").map FieldStats.count = some 2 := by
  decide +kernel

end Rollup
