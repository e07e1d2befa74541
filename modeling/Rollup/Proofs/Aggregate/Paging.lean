import Rollup.Proofs.Aggregate.Failure
import Rollup.Proofs.Sorting.SortKey

/-!
# Paging

The records of a grouping can be asked for page by page. Sorting comes before a page is cut out and
pruning after it, one record at a time, so the pages of a size, one after another, are the records
that there are without paging: none is left out or repeated where two pages meet. The reported
number of buckets is the same on every page.
-/

namespace Rollup

/-- The pieces of a size, one after another, are as many items of a list as they have room for. -/
theorem flatMap_take_drop {α : Type} (items : List α) (size count : Nat) :
    ((List.range count).flatMap fun index => (items.drop (index * size)).take size) =
      items.take (count * size) := by
  induction count with
  | zero => rw [Nat.zero_mul, List.take_zero, List.range_zero, List.flatMap_nil]
  | succ count ih =>
    rw [List.range_succ, List.flatMap_append, ih, List.flatMap_singleton, Nat.succ_mul,
      List.take_add]

/-- How many pages of a size so many records take, the last one being filled in part perhaps. -/
def pageCount (records size : Nat) : Nat :=
  (records + size - 1) / size

/-- The pages have room for all records. -/
theorem le_pageCount_mul (records : Nat) {size : Nat} (hsize : 0 < size) :
    records ≤ pageCount records size * size := by
  have hdiv := Nat.div_add_mod (records + size - 1) size
  have hmod := Nat.mod_lt (records + size - 1) hsize
  rw [Nat.mul_comm] at hdiv
  unfold pageCount
  omega

namespace EvalOptions

/-- The options for all records at once. -/
def unpaged (options : EvalOptions) : EvalOptions :=
  { options with skip := 0, limit := none }

/-- The options for one page of a size, the first page having the index zero. -/
def onPage (options : EvalOptions) (size index : Nat) : EvalOptions :=
  { options with skip := index * size, limit := some size }

theorem page_unpaged (options : EvalOptions) (records : List Value) :
    options.unpaged.page records = records := by
  simp only [page, unpaged, List.drop_zero]

theorem page_onPage (options : EvalOptions) {size : Nat} (hsize : 0 < size) (index : Nat)
    (records : List Value) :
    (options.onPage size index).page records = (records.drop (index * size)).take size := by
  obtain ⟨size, rfl⟩ := Nat.exists_eq_succ_of_ne_zero (Nat.ne_of_gt hsize)
  rfl

/-- Nothing is left on a page behind the last record. -/
theorem page_eq_nil {options : EvalOptions} {records : List Value}
    (h : records.length ≤ options.skip) : options.page records = [] := by
  have hdrop : records.drop options.skip = [] := List.drop_eq_nil_of_le h
  rw [page, hdrop]
  split
  · exact List.take_nil
  · rfl

end EvalOptions

section Shaping

variable (spec : Spec) (options : EvalOptions) (buckets : List Bucket)

/-- The records of buckets before a page is cut out of them. -/
def sortedRecords : List Value :=
  sortRecords options.sort (buckets.map (Bucket.toRecord spec))

/-- There is one record for each bucket. -/
theorem length_sortedRecords : (sortedRecords spec options buckets).length = buckets.length := by
  rw [sortedRecords, (sortRecords_perm_and_isChain _ _).1.length_eq, List.length_map]

/-- Without paging all records are pruned. -/
theorem shapeRecords_unpaged :
    shapeRecords spec options.unpaged buckets =
      (sortedRecords spec options buckets).map spec.prune :=
  congrArg (List.map spec.prune) (options.page_unpaged _)

/-- A page holds the pruned records from its first one on, as many as there is room for. -/
theorem shapeRecords_onPage {size : Nat} (hsize : 0 < size) (index : Nat) :
    shapeRecords spec (options.onPage size index) buckets =
      (((sortedRecords spec options buckets).drop (index * size)).take size).map spec.prune :=
  congrArg (List.map spec.prune) (options.page_onPage hsize index _)

/-- The pages of the buckets, one after another, are all records. -/
theorem flatMap_shapeRecords_onPage {size : Nat} (hsize : 0 < size) :
    ((List.range (pageCount buckets.length size)).flatMap fun index =>
        shapeRecords spec (options.onPage size index) buckets) =
      shapeRecords spec options.unpaged buckets := by
  have hroom := le_pageCount_mul buckets.length hsize
  rw [← length_sortedRecords spec options buckets] at hroom ⊢
  simp only [shapeRecords_onPage spec options buckets hsize, shapeRecords_unpaged]
  rw [← List.map_flatMap, flatMap_take_drop, List.take_of_length_le hroom]

end Shaping

/-- Paging tiles the result. The pages of a size, one after another, are the records without paging,
for which a limit of zero counts as none; a page that starts behind the last bucket is empty; and an
evaluation with these buckets gives every page with the same number of buckets. -/
theorem shapeRecords_pages_tile (spec : Spec) (options : EvalOptions) (buckets : List Bucket)
    {size : Nat} (hsize : 0 < size) :
    ((List.range (pageCount buckets.length size)).flatMap fun index =>
        shapeRecords spec (options.onPage size index) buckets) =
      shapeRecords spec options.unpaged buckets ∧
    shapeRecords spec { options.unpaged with limit := some 0 } buckets =
      shapeRecords spec options.unpaged buckets ∧
    (∀ skip limit, buckets.length ≤ skip →
      shapeRecords spec { options with skip, limit } buckets = []) ∧
    ∀ documents clauses table, spec.validate = .ok () → spec.groupBy = some clauses →
      groupDocuments spec clauses documents = .ok table → table.toList = buckets →
      ∀ skip limit, evaluate documents spec { options with skip, limit, total := true } =
        .ok (.grouped (shapeRecords spec { options with skip, limit } buckets)
          (some buckets.length)) := by
  -- A limit of zero cuts nothing off, by definition.
  refine ⟨flatMap_shapeRecords_onPage spec options buckets hsize, rfl, ?_, ?_⟩
  · intro skip limit hskip
    have hlength := length_sortedRecords spec options buckets
    have hpage :
        EvalOptions.page { options with skip, limit } (sortedRecords spec options buckets) = [] :=
      EvalOptions.page_eq_nil (by rw [hlength]; exact hskip)
    exact congrArg (List.map spec.prune) hpage
  · intro documents clauses table hvalid hgroup htable hbuckets skip limit
    subst hbuckets
    rw [evaluate_grouped hvalid hgroup htable]
    rfl

/-- Documents of three kinds, the second of which is the most frequent one. -/
def countedDocuments : List Document := [
  ⟨[("kind", .string "cat")]⟩,
  ⟨[("kind", .string "dog")]⟩,
  ⟨[("kind", .string "owl")]⟩,
  ⟨[("kind", .string "dog")]⟩]

/-- The number of documents of each kind. -/
def countsByKind : Spec where
  groupBy := some [⟨"kind", .value⟩]
  total := true

/-- The most frequent kinds come first. -/
def mostFrequentFirst : EvalOptions where
  sort := [⟨"total", .descending⟩]

/-- The record of a kind. -/
def kindRecord (kind : String) (count : Nat) : Value :=
  .object [("key", .array [.string kind]), ("total", .nat count)]

/-- The buckets of the kinds, in the order in which they come up. -/
def kindBuckets : List Bucket := [
  ⟨some [.string "cat"], { total := 1 }⟩,
  ⟨some [.string "dog"], { total := 2 }⟩,
  ⟨some [.string "owl"], { total := 1 }⟩]

/-- Two pages of two have room for three kinds. -/
theorem evaluate_countedDocuments_pages :
    0 < 2 ∧
    evaluate countedDocuments countsByKind { mostFrequentFirst.onPage 2 0 with total := true } =
      .ok (.grouped [kindRecord "dog" 2, kindRecord "cat" 1] (some 3)) ∧
    evaluate countedDocuments countsByKind { mostFrequentFirst.onPage 2 1 with total := true } =
      .ok (.grouped [kindRecord "owl" 1] (some 3)) ∧
    evaluate countedDocuments countsByKind { mostFrequentFirst.onPage 2 2 with total := true } =
      .ok (.grouped [] (some 3)) := by
  have hvalid : countsByKind.validate = .ok () := by cbv
  have hbuckets : (groupDocuments countsByKind [⟨"kind", .value⟩] countedDocuments).map
      BucketTable.toList = .ok kindBuckets := by decide +kernel
  have hrecords : kindBuckets.map (Bucket.toRecord countsByKind) =
      [kindRecord "cat" 1, kindRecord "dog" 2, kindRecord "owl" 1] := by decide +kernel
  have hdog : compareRecords mostFrequentFirst.sort (kindRecord "dog" 2) (kindRecord "cat" 1) =
      .lt := by decide +kernel
  have howl : compareRecords mostFrequentFirst.sort (kindRecord "owl" 1) (kindRecord "dog" 2) =
      .gt := by decide +kernel
  have htie : compareRecords mostFrequentFirst.sort (kindRecord "owl" 1) (kindRecord "cat" 1) =
      .eq := by decide +kernel
  have hsorted : sortedRecords countsByKind mostFrequentFirst kindBuckets =
      [kindRecord "dog" 2, kindRecord "cat" 1, kindRecord "owl" 1] := by
    rw [sortedRecords, hrecords]
    simp [sortRecords, stableSort, mergeRuns, mergePairs, hdog, howl, htie]
  have hfull : shapeRecords countsByKind (mostFrequentFirst.onPage 2 0) kindBuckets =
      [kindRecord "dog" 2, kindRecord "cat" 1] := by
    rw [shapeRecords_onPage _ _ _ (by decide), hsorted]
    decide +kernel
  have hshort : shapeRecords countsByKind (mostFrequentFirst.onPage 2 1) kindBuckets =
      [kindRecord "owl" 1] := by
    rw [shapeRecords_onPage _ _ _ (by decide), hsorted]
    decide +kernel
  obtain ⟨-, -, hbehind, hevaluate⟩ :=
    shapeRecords_pages_tile countsByKind mostFrequentFirst kindBuckets (show 0 < 2 by decide)
  cases htable : groupDocuments countsByKind [⟨"kind", .value⟩] countedDocuments with
  | error cause =>
    rw [htable] at hbuckets
    cases hbuckets
  | ok table =>
    rw [htable] at hbuckets
    have hpage := hevaluate _ _ _ hvalid rfl htable (Except.ok.inj hbuckets)
    have hfirst := hpage 0 (some 2)
    have hsecond := hpage 2 (some 2)
    have hthird := hpage 4 (some 2)
    rw [hbehind 4 (some 2) (by decide)] at hthird
    refine ⟨by decide, ?_, ?_, hthird⟩
    · rw [← hfull]
      exact hfirst
    · rw [← hshort]
      exact hsecond

end Rollup
