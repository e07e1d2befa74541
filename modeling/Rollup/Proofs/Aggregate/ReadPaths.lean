import Mathlib.Data.List.Forall2
import Rollup.Aggregate.Evaluation
import Rollup.Proofs.Aggregate.Grouping

/-!
# What an evaluation reads

An evaluation reads a document at the paths of its spec only, and there a null that is written out
is read as no value. Documents that look alike at these paths are put under the same keys and taken
into tallies alike, so they give the same result or the same error.
-/

namespace Rollup

/-- The paths at which documents are read: the fields of the clauses and those with statistics. -/
def Spec.paths (spec : Spec) : List String :=
  (spec.groupBy.getD []).map Clause.field ++ spec.stats.keys

/-- At every path of a spec two documents have the same value, or both have none but null. -/
def Spec.LookAlike (spec : Spec) (document other : Document) : Prop :=
  ∀ path ∈ spec.paths, document.data.resolvePresent? path = other.data.resolvePresent? path

section Steps

variable {data other : Value}

/-- A clause gives data the same key, or fails alike, if its field has the same value. -/
theorem Clause.key_congr {clause : Clause}
    (h : data.resolvePresent? clause.field = other.resolvePresent? clause.field) :
    clause.key data = clause.key other := by
  rw [key, key, h]

/-- Clauses give data the same group key, or fail alike, if their fields have the same values. -/
theorem groupKey_congr {clauses : List Clause}
    (h : ∀ clause ∈ clauses,
      data.resolvePresent? clause.field = other.resolvePresent? clause.field) :
    groupKey data clauses = groupKey other clauses := by
  induction clauses with
  | nil => rfl
  | cons clause clauses ih =>
    obtain ⟨hclause, hclauses⟩ := List.forall_mem_cons.mp h
    have hrest : clauses.mapM (Clause.key data) = clauses.mapM (Clause.key other) := ih hclauses
    rw [groupKey, groupKey, List.mapM_cons, List.mapM_cons, Clause.key_congr hclause, hrest]

/-- Taking in one field changes statistics alike if the field has the same value. -/
theorem Tally.observeField_congr {field : String}
    (h : data.resolvePresent? field = other.resolvePresent? field) (stats : SortedMap FieldStats) :
    observeField data stats field = observeField other stats field := by
  rw [observeField, observeField, h]

/-- Data with the same values at the fields of a spec change a tally alike. -/
theorem Tally.fold_congr {spec : Spec}
    (h : ∀ field ∈ spec.stats.keys, data.resolvePresent? field = other.resolvePresent? field)
    (tally : Tally) : tally.fold spec data = tally.fold spec other := by
  have hstats : ∀ stats, spec.stats.keys.foldl (observeField data) stats =
      spec.stats.keys.foldl (observeField other) stats := by
    intro stats
    apply List.foldl_ext
    intro stats field hfield
    exact observeField_congr (h field hfield) stats
  rw [fold, fold, hstats]

end Steps

section Runs

variable {spec : Spec} {documents others : List Document}
  (h : List.Forall₂ spec.LookAlike documents others)
include h

/-- Documents that look alike are taken into a bucket alike. -/
theorem foldl_fold_eq_of_lookAlike (bucket : Bucket) :
    documents.foldl (fun bucket document => bucket.fold spec document.data) bucket =
      others.foldl (fun bucket document => bucket.fold spec document.data) bucket := by
  induction h generalizing bucket with
  | nil => rfl
  | @cons document other documents others hfirst _ ih =>
    have hfold : bucket.fold spec document.data = bucket.fold spec other.data := by
      rw [Bucket.fold, Bucket.fold, Tally.fold_congr fun field hfield =>
        hfirst field (List.mem_append_right _ hfield)]
    rw [List.foldl_cons, List.foldl_cons, hfold, ih]

/-- Documents that look alike have the same record over all of them. -/
theorem overallRecord_eq_of_lookAlike :
    overallRecord spec documents = overallRecord spec others := by
  have hbucket := foldl_fold_eq_of_lookAlike h .overall
  cases h with
  | nil => rfl
  | cons _ _ => exact congrArg (fun bucket => spec.prune (bucket.toRecord spec)) hbucket

variable {clauses : List Clause} (hgroup : spec.groupBy = some clauses)
include hgroup

omit h in
/-- A document that looks like another one goes into the same bucket and changes it alike, or fails
alike. -/
theorem groupDocument_eq_of_lookAlike {document other : Document}
    (h : spec.LookAlike document other) (table : BucketTable) :
    groupDocument spec clauses table document = groupDocument spec clauses table other := by
  have hkey : groupKey document.data clauses = groupKey other.data clauses := by
    apply groupKey_congr
    intro clause hclause
    apply h
    rw [Spec.paths, hgroup]
    exact List.mem_append_left _ (List.mem_map_of_mem hclause)
  have hfold : ∀ tally : Tally, tally.fold spec document.data = tally.fold spec other.data :=
    Tally.fold_congr fun field hfield => h field (List.mem_append_right _ hfield)
  simp only [groupDocument, hkey, hfold]

/-- Documents that look alike are put into the same buckets, or fail alike. -/
theorem foldlM_groupDocument_eq_of_lookAlike (table : BucketTable) :
    documents.foldlM (groupDocument spec clauses) table =
      others.foldlM (groupDocument spec clauses) table := by
  induction h generalizing table with
  | nil => rfl
  | cons hfirst _ ih =>
    rw [List.foldlM_cons, List.foldlM_cons, groupDocument_eq_of_lookAlike hgroup hfirst]
    exact congrArg _ (funext ih)

end Runs

/-- An evaluation reads documents at the paths of its spec only, where null is as good as absent.
Two lists of documents that look alike there, one by one, give the same records and the same total,
or the same error, whatever the options. -/
theorem evaluate_eq_of_lookAlike {spec : Spec} {documents others : List Document}
    (h : List.Forall₂ spec.LookAlike documents others) (options : EvalOptions) :
    evaluate documents spec options = evaluate others spec options := by
  cases hgroup : spec.groupBy with
  | none =>
    have hrecord := overallRecord_eq_of_lookAlike h
    simp only [evaluate, hgroup, hrecord, h.length_eq]
  | some clauses =>
    have htable := foldlM_groupDocument_eq_of_lookAlike h hgroup .empty
    simp only [evaluate, hgroup, groupDocuments, htable]

/-- The mixed documents with other members and with an age that is null. -/
def annotatedDocuments : List Document := [
  ⟨[("age", .int 5), ("kind", .string "cat"), ("name", .string "Tom")]⟩,
  ⟨[("age", .int 2), ("kind", .string "dog"), ("tags", .array [.string "indoor", .null])]⟩,
  ⟨[("age", .null), ("kind", .string "cat")]⟩,
  ⟨[("age", .int 8), ("kind", .string "cat"), ("owner", .object [("age", .int 40)])]⟩]

/-- Ages by kind do not show what else is in the documents. -/
theorem evaluate_annotatedDocuments_eq :
    List.Forall₂ agesByKind.LookAlike mixedDocuments annotatedDocuments ∧
    evaluate mixedDocuments agesByKind { sort := [⟨"total", .descending⟩], total := true } =
      evaluate annotatedDocuments agesByKind
        { sort := [⟨"total", .descending⟩], total := true } := by
  have hlike : List.Forall₂ agesByKind.LookAlike mixedDocuments annotatedDocuments := by
    simp only [mixedDocuments, annotatedDocuments, List.forall₂_cons, List.forall₂_nil_left_iff,
      Spec.LookAlike]
    decide +kernel
  exact ⟨hlike, evaluate_eq_of_lookAlike hlike _⟩

end Rollup
