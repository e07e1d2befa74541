import Mathlib.Algebra.BigOperators.Ring.Finset
import Rollup.Proofs.Aggregate.Grouping
import Rollup.Proofs.Aggregate.RecordPart

/-!
# Rolling groups up

The groups of documents divide the documents among them, so what the records of the groups show adds
up to what the record over all documents shows: the totals, the counts and, as long as they are
integers of a bounded size, the sums.
-/

namespace Rollup

section Partition

variable {α β : Type} [DecidableEq β]

/-- Items that all have one of some distinct labels are, in another order, the items with the first
label, those with the second, and so on. -/
theorem flatMap_filter_perm {label : α → Option β} {labels : List β} (hnodup : labels.Nodup)
    {items : List α} (hlabels : ∀ item ∈ items, ∃ name ∈ labels, label item = some name) :
    (labels.flatMap fun name => items.filter fun item => label item = some name).Perm items := by
  induction labels generalizing items with
  | nil =>
    have hnone : items = [] := by
      rw [List.eq_nil_iff_forall_not_mem]
      intro item hitem
      obtain ⟨name, hname, _⟩ := hlabels item hitem
      exact List.not_mem_nil hname
    subst hnone
    exact List.Perm.refl _
  | cons name labels ih =>
    obtain ⟨hnew, hlabelsNodup⟩ := List.nodup_cons.mp hnodup
    -- The other labels see only the items without the first label.
    have hrest : (labels.flatMap fun other => items.filter fun item => label item = some other) =
        labels.flatMap fun other =>
          (items.filter fun item => !decide (label item = some name)).filter
            fun item => label item = some other := by
      apply List.flatMap_congr
      intro other hother
      rw [List.filter_filter]
      apply List.filter_congr
      intro item _
      have hne : other ≠ name := fun heq => hnew (heq ▸ hother)
      by_cases h : label item = some other <;> simp [h, hne]
    have hcovered : ∀ item ∈ items.filter fun item => !decide (label item = some name),
        ∃ other ∈ labels, label item = some other := by
      intro item hitem
      obtain ⟨hmem, hother⟩ := List.mem_filter.mp hitem
      obtain ⟨other, hothers, hlabel⟩ := hlabels item hmem
      rcases List.mem_cons.mp hothers with rfl | hothers
      · simp [hlabel] at hother
      · exact ⟨other, hothers, hlabel⟩
    rw [List.flatMap_cons, hrest]
    exact ((ih hlabelsNodup hcovered).append_left _).trans
      (List.filter_append_perm _ items)

end Partition

section Groups

variable {clauses : List Clause} {documents : List Document}

/-- The groups of documents divide the documents among them. -/
theorem flatMap_membersOf_perm
    (hkeys : ∀ document ∈ documents, ∃ key, groupKey document.data clauses = .ok key) :
    ((groupsOf clauses documents).flatMap (membersOf clauses documents)).Perm documents := by
  apply flatMap_filter_perm (nodup_eraseDups _)
  intro document hdocument
  obtain ⟨key, hkey⟩ := hkeys document hdocument
  have hgroup : document.group? clauses = some (Value.canonicalKey key) := by
    rw [Document.group?, hkey]
    rfl
  refine ⟨Value.canonicalKey key, ?_, hgroup⟩
  rw [List.mem_eraseDups, List.mem_filterMap]
  exact ⟨document, hdocument, hgroup⟩

/-- What the documents of the groups have, taken together, is what the documents have. -/
theorem flatMap_filterMap_membersOf_perm {α : Type}
    (hkeys : ∀ document ∈ documents, ∃ key, groupKey document.data clauses = .ok key)
    (part? : Document → Option α) :
    ((groupsOf clauses documents).flatMap fun group =>
      (membersOf clauses documents group).filterMap part?).Perm (documents.filterMap part?) := by
  rw [← List.filterMap_flatMap]
  exact (flatMap_membersOf_perm hkeys).filterMap part?

/-- The integers that the documents of the groups have add up to those that the documents have. -/
theorem sum_map_membersOf
    (hkeys : ∀ document ∈ documents, ∃ key, groupKey document.data clauses = .ok key)
    (part? : Document → Option Int) :
    ((groupsOf clauses documents).map fun group =>
      ((membersOf clauses documents group).filterMap part?).sum).sum =
        (documents.filterMap part?).sum := by
  rw [← (flatMap_filterMap_membersOf_perm hkeys part?).sum_eq, List.flatMap_def, List.sum_flatten,
    List.map_map]
  rfl

/-- What the documents of the groups have is as much as the documents have. -/
theorem sum_map_length_membersOf {α : Type}
    (hkeys : ∀ document ∈ documents, ∃ key, groupKey document.data clauses = .ok key)
    (part? : Document → Option α) :
    ((groupsOf clauses documents).map fun group =>
      (((membersOf clauses documents group).filterMap part?).length : Int)).sum =
        ((documents.filterMap part?).length : Int) := by
  rw [← (flatMap_filterMap_membersOf_perm hkeys part?).length_eq, List.length_flatMap,
    Nat.cast_list_sum, List.map_map]
  rfl

end Groups

/-- A record shows a number at a place: the number is there, or nothing is and the number is
zero. -/
def Value.Shows (record : Value) (place : List String) (n : Int) : Prop :=
  record.descend? place = some (.int n) ∨ record.descend? place = none ∧ n = 0

/-- What several records show at a place adds up to what one record shows there. -/
structure AddsUp (place : List String) (parts : List Value) (whole : Value) (total : Int) :
    Prop where
  /-- The parts show numbers that add up to the total. -/
  parts : ∃ shown : List Int,
    List.Forall₂ (fun record n => record.Shows place n) parts shown ∧ shown.sum = total
  /-- The whole shows the total. -/
  whole : whole.Shows place total

/-- The integers that documents have at a field. -/
def integersAt (field : String) (documents : List Document) : List Int :=
  integersOf (valuesAt field (documents.map Document.data))

/-- The numbers that documents have at a field. -/
def numbersAt (field : String) (documents : List Document) : List Number :=
  numbersOf (valuesAt field (documents.map Document.data))

/-- The parts roll up to the whole, which shows the number of documents, the number of documents
that have a field, and the sum of integers of bounded size; of a field only what is shown of it
counts. -/
structure RollsUp (spec : Spec) (documents : List Document) (shown : String → Stat → Prop)
    (parts : List Value) (whole : Value) : Prop where
  /-- The totals add up to the number of documents. -/
  total : spec.total = true → AddsUp ["total"] parts whole documents.length
  /-- The counts of a field add up to the number of documents that have it. -/
  count : ∀ field, shown field .count →
    AddsUp ["stats", field, "count"] parts whole
      (documents.countP fun document => (document.data.resolvePresent? field).isSome)
  /-- The sums of a field add up if all numbers in it are integers of bounded size. -/
  sum : ∀ field, shown field .sum → (∀ n ∈ numbersAt field documents, ∃ k, n = .integer k) →
    ((integersAt field documents).map Int.natAbs).sum < 2 ^ 63 →
    AddsUp ["stats", field, "sum"] parts whole (integersAt field documents).sum

section Shown

variable (spec : Spec) {bucket : Bucket} {documents : List Document} {field : String}

/-- A record shows how many documents it is about, if it is asked for. -/
theorem Bucket.shows_total
    (htally : bucket.tally = .ofData spec (documents.map Document.data))
    (htotal : spec.total = true) : (bucket.toRecord spec).Shows ["total"] documents.length := by
  left
  rw [descend?_toRecord_total, if_pos htotal, htally, Tally.total_ofData, if_pos htotal,
    List.length_map]
  rfl

/-- The statistic of a field in a record is that of the values that its documents have there. -/
theorem Bucket.descend?_statistic_ofData {data : List Value}
    (htally : bucket.tally = .ofData spec data) (hfield : field ∈ spec.stats.keys) (stat : Stat) :
    (bucket.toRecord spec).descend? ["stats", field, stat.name] =
      if data = [] then none else (FieldStats.ofValues (valuesAt field data)).statistic? stat := by
  rw [descend?_toRecord_ofData spec bucket htally, statistic?, htally, Tally.find?_ofData]
  by_cases hdata : data = [] <;> simp [hdata, hfield]

/-- A record shows in how many of its documents a field is present. -/
theorem Bucket.shows_count
    (htally : bucket.tally = .ofData spec (documents.map Document.data))
    (hfield : field ∈ spec.stats.keys) :
    (bucket.toRecord spec).Shows ["stats", field, "count"]
      (documents.countP fun document => (document.data.resolvePresent? field).isSome) := by
  have hcount : (valuesAt field (documents.map Document.data)).length =
      documents.countP fun document => (document.data.resolvePresent? field).isSome := by
    rw [valuesAt, List.length_filterMap_eq_countP, List.countP_map]
    rfl
  have hshown := descend?_statistic_ofData spec htally hfield .count
  rw [FieldStats.statistic?, FieldStats.count_ofValues, hcount] at hshown
  by_cases hzero : 0 < documents.countP fun document => (document.data.resolvePresent? field).isSome
  · have hdata : documents.map Document.data ≠ [] := by
      rintro hnil
      rw [List.map_eq_nil_iff.mp hnil] at hzero
      exact Nat.lt_irrefl 0 hzero
    rw [if_neg hdata, if_pos hzero] at hshown
    exact Or.inl hshown
  · right
    rw [if_neg hzero, ite_self] at hshown
    exact ⟨hshown, by omega⟩

/-- A record shows the sum of the integers that its documents have at a field. -/
theorem Bucket.shows_sum
    (htally : bucket.tally = .ofData spec (documents.map Document.data))
    (hfield : field ∈ spec.stats.keys)
    (hnumbers : ∀ n ∈ numbersAt field documents, ∃ k, n = .integer k)
    (hsize : ((integersAt field documents).map Int.natAbs).sum < 2 ^ 63) :
    (bucket.toRecord spec).Shows ["stats", field, "sum"] (integersAt field documents).sum := by
  have hshown := descend?_statistic_ofData spec htally hfield .sum
  rw [FieldStats.statistic?, FieldStats.sum_ofValues] at hshown
  by_cases hnil : valuesAt field (documents.map Document.data) = []
  · right
    rw [if_pos hnil, Option.map_none, ite_self] at hshown
    refine ⟨hshown, ?_⟩
    rw [integersAt, hnil]
    rfl
  · left
    have hdata : documents.map Document.data ≠ [] := by
      intro h
      exact hnil (by rw [h]; rfl)
    have hexact : (numbersAt field documents).foldl Sum.add (.exact 0) =
        .exact (integersAt field documents).sum := by
      rw [numbersAt, numbersOf_eq_map_integer hnumbers]
      exact Sum.foldl_add_of_natAbs_lt hsize
    rw [if_neg hdata, if_neg hnil, Option.map_some] at hshown
    exact hshown.trans (congrArg (fun sum => some (Sum.toValue sum)) hexact)

end Shown

section Transport

variable {place : List String} {parts others : List Value} {whole other : Value} {total : Int}

/-- Records that show something at a place under distinct labels add up to what shows their sum. -/
theorem addsUp_map {labels : List String} {record : String → Value} {weight : String → Int}
    (hparts : ∀ label ∈ labels, (record label).Shows place (weight label))
    (hwhole : whole.Shows place total) (hsum : (labels.map weight).sum = total) :
    AddsUp place (labels.map record) whole total := by
  refine ⟨⟨labels.map weight, ?_, hsum⟩, hwhole⟩
  rw [List.forall₂_map_left_iff, List.forall₂_map_right_iff, List.forall₂_same]
  exact hparts

/-- A record shows at a place whatever another one shows there. -/
def Covers (place : List String) (old new : Value) : Prop :=
  ∀ n, old.Shows place n → new.Shows place n

/-- Records that show the same add up to the same. -/
theorem AddsUp.of_covers {buckets : List Bucket} {record other : Bucket → Value}
    {whole otherWhole : Value} (h : AddsUp place (buckets.map record) whole total)
    (hparts : ∀ bucket, Covers place (record bucket) (other bucket))
    (hwhole : Covers place whole otherWhole) :
    AddsUp place (buckets.map other) otherWhole total := by
  obtain ⟨⟨shown, hshown, hsum⟩, htotal⟩ := h
  refine ⟨⟨shown, ?_, hsum⟩, hwhole total htotal⟩
  rw [List.forall₂_map_left_iff] at hshown ⊢
  exact hshown.imp fun bucket n => hparts bucket n

end Transport

section Groups

variable (spec : Spec) {clauses : List Clause} {documents : List Document} {field : String}

theorem integersAt_eq_filterMap (field : String) (documents : List Document) :
    integersAt field documents = documents.filterMap fun document =>
      (document.data.resolvePresent? field).bind Value.integer? := by
  rw [integersAt, integersOf, valuesAt, List.filterMap_map, List.filterMap_filterMap]
  rfl

/-- A group has no integers but those of all documents. -/
theorem integersAt_membersOf_sublist (group : String) :
    (integersAt field (membersOf clauses documents group)).Sublist
      (integersAt field documents) := by
  rw [integersAt_eq_filterMap, integersAt_eq_filterMap]
  exact List.filter_sublist.filterMap _

/-- A group has no numbers but those of all documents. -/
theorem numbersAt_membersOf_sublist (group : String) :
    (numbersAt field (membersOf clauses documents group)).Sublist (numbersAt field documents) :=
  ((List.filter_sublist.map _).filterMap _).filterMap _

/-- The records of the groups roll up to the record of all documents. -/
theorem rollsUp_toRecord {table : BucketTable}
    (h : groupDocuments spec clauses documents = .ok table) :
    RollsUp spec documents (fun field _ => field ∈ spec.stats.keys)
      (table.toList.map (Bucket.toRecord spec))
      (Bucket.toRecord spec ((documents.map Document.data).foldl (Bucket.fold spec) .overall)) := by
  have hkeys := exists_groupDocuments_eq_ok_iff.mp ⟨table, h⟩
  have hgroup := tally_bucketOf_map_access spec hkeys
  rw [toList_of_groupDocuments spec h, List.map_map]
  have hoverall : ((documents.map Document.data).foldl (Bucket.fold spec) .overall).tally =
      .ofData spec (documents.map Document.data) := by
    rw [Bucket.foldl_fold]
    rfl
  constructor
  · intro htotal
    refine addsUp_map (fun group _ => Bucket.shows_total spec (hgroup group) htotal)
      (Bucket.shows_total spec hoverall htotal) ?_
    simpa using sum_map_length_membersOf hkeys some
  · intro field hfield
    refine addsUp_map (fun group _ => Bucket.shows_count spec (hgroup group) hfield)
      (Bucket.shows_count spec hoverall hfield) ?_
    simpa only [List.length_filterMap_eq_countP] using
      sum_map_length_membersOf hkeys fun document => document.data.resolvePresent? field
  · intro field hfield hnumbers hsize
    have hparts : ∀ group ∈ groupsOf clauses documents,
        (Bucket.toRecord spec
          (Access.bucketOf (documents.map (Document.access spec clauses)) group)).Shows
            ["stats", field, "sum"] (integersAt field (membersOf clauses documents group)).sum := by
      intro group _
      apply Bucket.shows_sum spec (hgroup group) hfield
      · intro n hn
        exact hnumbers n ((numbersAt_membersOf_sublist group).subset hn)
      · exact Nat.lt_of_le_of_lt
          (((integersAt_membersOf_sublist group).map Int.natAbs).sum_le_sum (by simp)) hsize
    refine addsUp_map hparts (Bucket.shows_sum spec hoverall hfield hnumbers hsize) ?_
    simpa only [integersAt_eq_filterMap] using sum_map_membersOf hkeys fun document =>
      (document.data.resolvePresent? field).bind Value.integer?

/-- A requested statistic is one of a field of the spec. -/
theorem Spec.mem_keys_of_requests {field name : String} (h : spec.requests field name = true) :
    field ∈ spec.stats.keys := by
  obtain ⟨_, set, _, hset, _⟩ := (spec.requests_eq_true_iff).mp h
  rw [SortedMap.mem_keys_iff, hset]
  rfl

/-- A record shows the requested statistics also after pruning. -/
theorem Bucket.covers_prune_statistic (bucket : Bucket) {stat : Stat}
    (h : spec.requests field stat.name = true) :
    Covers ["stats", field, stat.name] (bucket.toRecord spec)
      (spec.prune (bucket.toRecord spec)) := by
  intro n hn
  rw [Value.Shows, descend?_prune_statistic, if_pos h]
  exact hn

/-- A record shows the total also after pruning. -/
theorem Bucket.covers_prune_total (bucket : Bucket) :
    Covers ["total"] (bucket.toRecord spec) (spec.prune (bucket.toRecord spec)) := by
  intro n hn
  rw [Value.Shows, descend?_prune_total]
  exact hn

/-- The record over all documents shows the total of their bucket; without documents it is empty,
and the total zero. -/
theorem covers_overallRecord_total (documents : List Document) :
    Covers ["total"]
      (Bucket.toRecord spec ((documents.map Document.data).foldl (Bucket.fold spec) .overall))
      (overallRecord spec documents) := by
  cases documents with
  | nil =>
    intro n hn
    right
    refine ⟨rfl, ?_⟩
    rw [Value.Shows, Bucket.descend?_toRecord_total] at hn
    split at hn
    · rcases hn with hn | ⟨hn, _⟩
      · cases hn
        rfl
      · cases hn
    · rcases hn with hn | ⟨_, hzero⟩
      · cases hn
      · exact hzero
  | cons document documents =>
    rw [overallRecord_cons, Bucket.foldl_fold]
    exact Bucket.covers_prune_total spec _

/-- The record over all documents shows the requested statistics of their bucket; without documents
it is empty, and so are the statistics. -/
theorem covers_overallRecord_statistic (documents : List Document) {stat : Stat}
    (h : spec.requests field stat.name = true) :
    Covers ["stats", field, stat.name]
      (Bucket.toRecord spec ((documents.map Document.data).foldl (Bucket.fold spec) .overall))
      (overallRecord spec documents) := by
  cases documents with
  | nil =>
    intro n hn
    right
    refine ⟨rfl, ?_⟩
    have hnone : (Bucket.overall.toRecord spec).descend? ["stats", field, stat.name] = none := by
      rw [Bucket.descend?_toRecord_statistic]
      split <;> rfl
    rcases hn with hn | ⟨_, hzero⟩
    · exact absurd (hnone.symm.trans hn) (by simp)
    · exact hzero
  | cons document documents =>
    rw [overallRecord_cons, Bucket.foldl_fold]
    exact Bucket.covers_prune_statistic spec _ h

end Groups

/-- Evaluating with a grouping rolls up to evaluating without one: in the records of the result the
totals, the requested counts and the requested sums of integers add up to those of the record over
all documents. Before pruning this holds of every field of the spec, whatever is requested of it. -/
theorem evaluate_grouped_rollsUp {documents : List Document} {spec : Spec} {clauses : List Clause}
    {options : EvalOptions} {result : EvalResult} (hvalid : spec.validate = .ok ())
    (hgroup : spec.groupBy = some clauses) (hsort : options.sort = []) (hskip : options.skip = 0)
    (hlimit : options.limit.getD 0 = 0) (hrun : evaluate documents spec options = .ok result) :
    ∃ table records overall,
      groupDocuments spec clauses documents = .ok table ∧
      result = .grouped records (options.report table.size) ∧
      evaluate documents { spec with groupBy := none } options =
        .ok (.overall overall (options.report documents.length)) ∧
      RollsUp spec documents (fun field stat => spec.requests field stat.name = true)
        records overall ∧
      RollsUp spec documents (fun field _ => field ∈ spec.stats.keys)
        (table.toList.map (Bucket.toRecord spec))
        (Bucket.toRecord spec
          ((documents.map Document.data).foldl (Bucket.fold spec) .overall)) := by
  have hsuccess : ∃ table, groupDocuments spec clauses documents = .ok table := by
    rw [exists_eq_ok_iff]
    intro error herror
    rw [← evaluate_eq_error_iff_groupDocuments hvalid hgroup documents options, hrun] at herror
    cases herror
  obtain ⟨table, htable⟩ := hsuccess
  have hresult := evaluate_grouped hvalid hgroup htable options
  rw [hrun, shapeRecords_plain spec _ hsort hskip hlimit, Except.ok.injEq] at hresult
  have hfull := rollsUp_toRecord spec htable
  refine ⟨table, table.toList.map fun bucket => spec.prune (bucket.toRecord spec),
    overallRecord spec documents, htable, hresult, evaluate_ungrouped spec hvalid documents options,
    ⟨?_, ?_, ?_⟩, hfull⟩
  · intro htotal
    exact (hfull.total htotal).of_covers (Bucket.covers_prune_total spec)
      (covers_overallRecord_total spec documents)
  · intro field hrequested
    exact (hfull.count field (spec.mem_keys_of_requests hrequested)).of_covers
      (fun bucket => bucket.covers_prune_statistic spec hrequested)
      (covers_overallRecord_statistic spec documents hrequested)
  · intro field hrequested hnumbers hsize
    exact (hfull.sum field (spec.mem_keys_of_requests hrequested) hnumbers hsize).of_covers
      (fun bucket => bucket.covers_prune_statistic spec hrequested)
      (covers_overallRecord_statistic spec documents hrequested)

/-- How many documents of each kind have an age, and the sum of their ages. -/
def countedAgesByKind : Spec :=
  agesByKind.requestStats "age" (StatSet.ofList [.count])

/-- The kinds of the mixed documents roll up to all four of them. -/
theorem evaluate_mixedDocuments_rollsUp :
    countedAgesByKind.validate = .ok () ∧
    (∀ n ∈ numbersAt "age" mixedDocuments, ∃ k, n = .integer k) ∧
    ((integersAt "age" mixedDocuments).map Int.natAbs).sum < 2 ^ 63 ∧
    ∃ records overall,
      evaluate mixedDocuments countedAgesByKind {} = .ok (.grouped records none) ∧
      evaluate mixedDocuments { countedAgesByKind with groupBy := none } {} =
        .ok (.overall overall none) ∧
      AddsUp ["total"] records overall 4 ∧
      AddsUp ["stats", "age", "count"] records overall 3 ∧
      AddsUp ["stats", "age", "sum"] records overall 15 := by
  have hvalid : countedAgesByKind.validate = .ok () := by decide +kernel
  obtain ⟨result, hrun⟩ : ∃ result, evaluate mixedDocuments countedAgesByKind {} = .ok result := by
    rw [exists_eq_ok_iff]
    intro error herror
    have hsome : (evaluate mixedDocuments countedAgesByKind {}).toOption.isSome = true := by
      decide +kernel
    rw [herror] at hsome
    cases hsome
  have hnumbers : ∀ n ∈ numbersAt "age" mixedDocuments, ∃ k, n = .integer k := by
    intro n hn
    have hages : numbersAt "age" mixedDocuments = [.integer 5, .integer 2, .integer 8] := by
      decide +kernel
    rw [hages] at hn
    simp only [List.mem_cons, List.not_mem_nil, or_false] at hn
    rcases hn with rfl | rfl | rfl <;> exact ⟨_, rfl⟩
  have hsize : ((integersAt "age" mixedDocuments).map Int.natAbs).sum < 2 ^ 63 := by decide +kernel
  obtain ⟨table, records, overall, -, hresult, hoverall, hroll, -⟩ :=
    evaluate_grouped_rollsUp hvalid rfl rfl rfl rfl hrun
  refine ⟨hvalid, hnumbers, hsize, records, overall, hresult ▸ hrun, hoverall, ?_, ?_, ?_⟩
  · exact hroll.total rfl
  · have hcount := hroll.count "age" (by decide +kernel)
    have hthree : (mixedDocuments.countP fun document =>
        (document.data.resolvePresent? "age").isSome) = 3 := by decide +kernel
    rwa [hthree] at hcount
  · have hsum := hroll.sum "age" (by decide +kernel) hnumbers hsize
    have hfifteen : (integersAt "age" mixedDocuments).sum = 15 := by decide +kernel
    rwa [hfifteen] at hsum

end Rollup
