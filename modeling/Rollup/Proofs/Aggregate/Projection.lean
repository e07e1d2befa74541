import Rollup.Proofs.Aggregate.Grouping
import Rollup.Proofs.Aggregate.Pruning
import Rollup.Proofs.Aggregate.Tally

/-!
# Requesting fewer statistics

What a spec requests of a field decides only what is left of a record in the end. Everything before
that goes by the fields alone: the tallies, the records that are sorted, the page that is cut out of
them. So a spec that requests less than another one of the same fields gives the result of the other
one with its records pruned further.
-/

namespace Rollup

namespace Spec

/-- A spec requests no more than a wider one, of the same fields, and agrees with it in all else. -/
structure Narrows (narrow wide : Spec) : Prop where
  /-- Both group alike. -/
  groupBy : narrow.groupBy = wide.groupBy
  /-- Both count the documents, or neither does. -/
  total : narrow.total = wide.total
  /-- Both keep statistics of the same fields. -/
  fields : narrow.stats.keys = wide.stats.keys
  /-- Of every field the wider one requests all that the other one does. -/
  stats : ∀ field few many, narrow.stats.find? field = some few →
    wide.stats.find? field = some many →
    ∀ stat, few.contains stat = true → many.contains stat = true

/-- A narrower spec requests no more than the wider one. -/
theorem Narrows.within {narrow wide : Spec} (h : narrow.Narrows wide) : narrow.Within wide where
  requests := by
    rintro field name ⟨few, stat, hfew, hcontains, hname⟩
    have hfield : field ∈ wide.stats.keys := by
      rw [← h.fields, SortedMap.mem_keys_iff, hfew]
      rfl
    obtain ⟨many, hmany⟩ := Option.isSome_iff_exists.mp ((wide.stats.mem_keys_iff field).mp hfield)
    exact ⟨many, stat, hmany, h.stats field few many hfew hmany stat hcontains, hname⟩
  total htotal := h.total ▸ htotal

end Spec

/-- The result with every record changed. -/
def EvalResult.mapRecords (change : Value → Value) : EvalResult → EvalResult
  | overall record total => .overall (change record) total
  | grouped records total => .grouped (records.map change) total

section Evaluation

variable {narrow wide : Spec} (h : narrow.Narrows wide)
include h

/-- A narrower spec has the faults of the wider one. -/
theorem Spec.Narrows.validate_eq : narrow.validate = wide.validate := by
  rw [validate, validate, fault?, fault?, h.fields, h.groupBy]

/-- A narrower spec takes a document into a tally as the wider one does. -/
theorem Spec.Narrows.tallyFold_eq : Tally.fold narrow = Tally.fold wide := by
  funext tally data
  rw [Tally.fold, Tally.fold, h.fields, h.total]

/-- Before pruning a bucket has the same record under both specs. -/
theorem Spec.Narrows.toRecord_eq : Bucket.toRecord narrow = Bucket.toRecord wide := by
  have hempty : narrow.stats.isEmpty = wide.stats.isEmpty := by
    rw [SortedMap.isEmpty_eq, SortedMap.isEmpty_eq, h.fields]
  funext bucket
  rw [Bucket.toRecord, Bucket.toRecord, hempty, h.total]

/-- A narrower spec puts documents into the buckets of the wider one. -/
theorem Spec.Narrows.groupDocuments_eq (clauses : List Clause) (documents : List Document) :
    groupDocuments narrow clauses documents = groupDocuments wide clauses documents := by
  have hstep : groupDocument narrow clauses = groupDocument wide clauses := by
    funext table document
    rw [groupDocument, groupDocument, h.tallyFold_eq]
  rw [groupDocuments, groupDocuments, hstep]

/-- Records are sorted and cut to a page before they are pruned, so those of a narrower spec are
those of the wider one, pruned further. -/
theorem Spec.Narrows.shapeRecords_eq (options : EvalOptions) (buckets : List Bucket) :
    shapeRecords narrow options buckets = (shapeRecords wide options buckets).map narrow.prune := by
  rw [shapeRecords, shapeRecords, h.toRecord_eq, List.map_map]
  apply List.map_congr_left
  intro record _
  exact (h.within.prune_prune record).symm

/-- The record over all documents is that of the wider spec, pruned further. -/
theorem Spec.Narrows.overallRecord_eq (documents : List Document) :
    overallRecord narrow documents = narrow.prune (overallRecord wide documents) := by
  cases documents with
  | nil => rfl
  | cons first rest =>
    have hfold : Bucket.fold narrow = Bucket.fold wide := by
      funext bucket data
      rw [Bucket.fold, Bucket.fold, h.tallyFold_eq]
    simp only [overallRecord]
    rw [h.within.prune_prune, hfold, h.toRecord_eq]

end Evaluation

/-- What a spec requests of its fields only shows in the records of a result. A spec that requests
less than a wider one fails on the same documents with the same error; otherwise it gives the same
records in the same order and the same total, each record with the further statistics pruned
away. -/
theorem evaluate_eq_map_prune_of_narrows {narrow wide : Spec} (h : narrow.Narrows wide)
    (documents : List Document) (options : EvalOptions) :
    evaluate documents narrow options =
      (evaluate documents wide options).map (EvalResult.mapRecords narrow.prune) := by
  -- Both evaluations take the same branches; only what the last one does to records differs.
  rw [evaluate, evaluate, h.validate_eq, h.groupBy]
  cases wide.validate with
  | error cause => rfl
  | ok _ =>
    cases wide.groupBy with
    | none =>
      rw [h.overallRecord_eq]
      rfl
    | some clauses =>
      simp only [h.groupDocuments_eq, h.shapeRecords_eq]
      cases groupDocuments wide clauses documents <;> rfl

/-- Documents of two kinds; the kind that comes up first has no late day of birth. -/
def bornDocuments : List Document := [
  ⟨[("born", .string "2016-04-01"), ("kind", .string "cat")]⟩,
  ⟨[("born", .string "2019-12-24"), ("kind", .string "dog")]⟩,
  ⟨[("kind", .string "dog")]⟩]

/-- The number of documents of each kind, and some statistics of the days of birth. -/
def birthsByKind (stats : List Stat) : Spec where
  groupBy := some [⟨"kind", .value⟩]
  stats := SortedMap.empty.insert "born" (StatSet.ofList stats)
  total := true

/-- The group with the last day of birth. -/
def lastBorn : EvalOptions where
  sort := [⟨"stats.born.max", .descending⟩]
  limit := some 1

/-- The page holds the kind with the last day of birth, although that day is not requested. -/
theorem evaluate_bornDocuments_eq_map_prune :
    (birthsByKind [.count]).Narrows (birthsByKind [.count, .max]) ∧
    evaluate bornDocuments (birthsByKind [.count]) lastBorn =
      .ok (.grouped [.object [("key", .array [.string "dog"]),
        ("stats", .object [("born", .object [("count", .nat 1)])]), ("total", .nat 2)]] none) := by
  have hnarrows : (birthsByKind [.count]).Narrows (birthsByKind [.count, .max]) := by
    refine ⟨rfl, rfl, rfl, ?_⟩
    intro field few many hfew hmany stat hstat
    rw [birthsByKind, SortedMap.find?_insert] at hfew hmany
    split at hfew
    · next hfield =>
      rw [if_pos hfield] at hmany
      cases hfew
      cases hmany
      cases stat <;> first | rfl | cases hstat
    · cases hfew
  have hvalid : (birthsByKind [.count, .max]).validate = .ok () := by cbv
  have hbuckets : (groupDocuments (birthsByKind [.count, .max]) [⟨"kind", .value⟩]
      bornDocuments).map BucketTable.toList = .ok [
        ⟨some [.string "cat"], .ofData (birthsByKind [])
          [.object [("born", .string "2016-04-01")]]⟩,
        ⟨some [.string "dog"], .ofData (birthsByKind [])
          [.object [("born", .string "2019-12-24")], .object []]⟩] := by decide +kernel
  refine ⟨hnarrows, ?_⟩
  rw [evaluate_eq_map_prune_of_narrows hnarrows]
  cases htable : groupDocuments (birthsByKind [.count, .max]) [⟨"kind", .value⟩] bornDocuments with
  | error cause =>
    rw [htable] at hbuckets
    cases hbuckets
  | ok table =>
    rw [htable] at hbuckets
    have hlist := Except.ok.inj hbuckets
    have hreport : lastBorn.report table.size = none := rfl
    rw [evaluate_grouped hvalid rfl htable, hreport, shapeRecords, hlist, sortRecords,
      List.map_cons, List.map_singleton, stableSort_pair]
    decide +kernel

end Rollup
