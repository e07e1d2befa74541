import Mathlib.Data.List.Forall2
import Rollup.Proofs.Aggregate.Reordering
import Rollup.Proofs.Aggregate.RollUp
import Rollup.Proofs.Aggregate.SafeSum
import Rollup.Proofs.Value.SignOfZero

/-!
# The spelling of numbers does not matter

Documents may write a safe integer as a floating-point number of its value. They are then put into
the same groups, and the records show the same totals, counts, sums and averages, as long as what is
added up stays in the safe range; keys have one canonical form, and extremes compare as equal.
-/

namespace Rollup

section Outcomes

variable {ε α β γ δ : Type}

/-- Two outcomes are the same error, or two results in a relation. -/
inductive SameOutcome (r : α → β → Prop) : Except ε α → Except ε β → Prop where
  /-- Both succeed. -/
  | ok {a : α} {b : β} (h : r a b) : SameOutcome r (.ok a) (.ok b)
  /-- Both fail. -/
  | error (e : ε) : SameOutcome r (.error e) (.error e)

theorem SameOutcome.eq_error_iff {r : α → β → Prop} {x : Except ε α} {y : Except ε β}
    (h : SameOutcome r x y) (e : ε) : x = .error e ↔ y = .error e := by
  cases h <;> simp

theorem SameOutcome.imp {r s : α → β → Prop} {x : Except ε α} {y : Except ε β}
    (h : SameOutcome r x y) (himp : ∀ a b, r a b → s a b) : SameOutcome s x y := by
  cases h with
  | ok h => exact .ok (himp _ _ h)
  | error e => exact .error e

/-- Steps with the same outcome, one after the other, have the same outcome. -/
theorem SameOutcome.bind {r : α → β → Prop} {s : γ → δ → Prop} {x : Except ε α} {y : Except ε β}
    {f : α → Except ε γ} {g : β → Except ε δ} (h : SameOutcome r x y)
    (hstep : ∀ a b, r a b → SameOutcome s (f a) (g b)) : SameOutcome s (x >>= f) (y >>= g) := by
  cases h with
  | ok h => exact hstep _ _ h
  | error e => exact .error e

/-- Steps with the same outcomes make traversals with the same outcome. -/
theorem sameOutcome_mapM {r : α → β → Prop} {f : γ → Except ε α} {g : δ → Except ε β}
    {items : List γ} {others : List δ}
    (h : List.Forall₂ (fun item other => SameOutcome r (f item) (g other)) items others) :
    SameOutcome (List.Forall₂ r) (items.mapM f) (others.mapM g) := by
  induction h with
  | nil => exact .ok .nil
  | cons hfirst _ ih =>
    rw [List.mapM_cons, List.mapM_cons]
    exact hfirst.bind fun _ _ hab => ih.bind fun _ _ habs => .ok (.cons hab habs)

end Outcomes

section Keys

variable {a b : Value} (h : a.Respells b)
include h

/-- A range holds both spellings of a value or none of them. -/
theorem Value.Respells.contains_eq (range : Range) : range.contains a = range.contains b := by
  have hstart : Range.isAtLeast a = Range.isAtLeast b := by
    funext bound
    rw [Range.isAtLeast, Range.isAtLeast, h.compare?_left]
  have hstop : Range.isBelow a = Range.isBelow b := by
    funext bound
    rw [Range.isBelow, Range.isBelow, h.compare?_left]
  rw [Range.contains, Range.contains, hstart, hstop]

theorem Value.Respells.rangeKey_eq (ranges : List Range) :
    rangeKey ranges a = rangeKey ranges b := by
  simp only [rangeKey, h.contains_eq]

/-- Both spellings of a value lie in the same cell of a grid. -/
theorem Value.Respells.intervalKey_eq (width base : Binary64) :
    intervalKey width base a = intervalKey width base b := by
  cases h with
  | number h =>
    apply Value.intervalKey_eq_of_sameValue
    cases h with
    | same => exact .refl _
    | @float n x hsafe hvalue =>
      have hn : (Number.integer n).toBinary64 = .finite (Number.ofSafe n hsafe) :=
        Number.ofInt_eq_ofSafe hsafe
      rw [hn]
      apply Binary64.sameValue_of_toUnits
      rw [Number.toUnits_ofSafe, Number.toUnits_of_value hvalue]
  | _ => rfl

/-- Both spellings of a value have keys of one canonical form, or fail alike. -/
theorem Value.Respells.keyOf (clause : Clause) :
    SameOutcome (fun k l => k.canonical = l.canonical) (clause.keyOf a) (clause.keyOf b) := by
  rw [Clause.keyOf, Clause.keyOf, h.isArray_eq]
  split
  · exact .error _
  · cases clause.bucketing with
    | value => exact .ok h.canonical_eq
    | ranges ranges => exact .ok (congrArg Value.canonical (h.rangeKey_eq ranges))
    | interval width base => exact .ok (congrArg Value.canonical (h.intervalKey_eq width base))
    | timeComponent component => exact .error _

/-- A clause gives both spellings of some data keys of one canonical form, or fails alike. -/
theorem Value.Respells.clauseKey (clause : Clause) :
    SameOutcome (fun k l => k.canonical = l.canonical) (clause.key a) (clause.key b) := by
  have hpart := h.resolvePresent? clause.field
  rw [Clause.key, Clause.key]
  generalize a.resolvePresent? clause.field = x at hpart ⊢
  generalize b.resolvePresent? clause.field = y at hpart ⊢
  cases hpart with
  | none => exact .ok rfl
  | some hpart => exact hpart.keyOf clause

omit h in
/-- Tuples of values of one canonical form have one canonical key. -/
theorem Value.canonicalKey_eq_of_forall₂ {keys others : List Value}
    (h : List.Forall₂ (fun k l => canonical k = canonical l) keys others) :
    canonicalKey keys = canonicalKey others := by
  have hitems : canonicalItems keys = canonicalItems others := by
    induction h with
    | nil => rfl
    | cons hfirst hrest ih =>
      rw [canonicalItems, canonicalItems, hfirst, ih]
      cases hrest <;> rfl
  rw [canonicalKey, canonicalKey, hitems]

/-- Clauses give both spellings of some data group keys of one canonical form, or fail alike. -/
theorem Value.Respells.groupKey (clauses : List Clause) :
    SameOutcome (fun k l => canonicalKey k = canonicalKey l) (groupKey a clauses)
      (groupKey b clauses) := by
  have hkeys : SameOutcome (List.Forall₂ fun k l => canonical k = canonical l)
      (Rollup.groupKey a clauses) (Rollup.groupKey b clauses) :=
    sameOutcome_mapM (List.forall₂_same.mpr fun clause _ => h.clauseKey clause)
  exact hkeys.imp fun _ _ => canonicalKey_eq_of_forall₂

end Keys

/-- Documents and the same documents with safe integers spelled as floating-point numbers. -/
def RespellDocuments (documents others : List Document) : Prop :=
  List.Forall₂ (fun document other => document.data.Respells other.data) documents others

section Groups

variable {documents others : List Document} (h : RespellDocuments documents others)
include h

/-- The documents at one position of both lists are in one group, or in none. -/
theorem RespellDocuments.map_group?_eq (clauses : List Clause) :
    documents.map (Document.group? clauses) = others.map (Document.group? clauses) := by
  rw [← List.forall₂_eq_eq_eq, List.forall₂_map_left_iff, List.forall₂_map_right_iff]
  refine h.imp fun document other hdata => ?_
  have hkey := hdata.groupKey clauses
  rw [Document.group?, Document.group?]
  generalize groupKey document.data clauses = x at hkey ⊢
  generalize groupKey other.data clauses = y at hkey ⊢
  cases hkey with
  | ok hkey => exact congrArg some hkey
  | error e => rfl

theorem RespellDocuments.groupsOf_eq (clauses : List Clause) :
    groupsOf clauses documents = groupsOf clauses others := by
  have hgroups : ∀ list : List Document, list.filterMap (Document.group? clauses) =
      (list.map (Document.group? clauses)).filterMap id := by
    intro list
    rw [List.filterMap_map]
    rfl
  rw [groupsOf, groupsOf, hgroups, hgroups, h.map_group?_eq clauses]

/-- The members of a group, in both lists, are at the same positions. -/
theorem RespellDocuments.membersOf (clauses : List Clause) (group : String) :
    RespellDocuments (membersOf clauses documents group) (membersOf clauses others group) := by
  have hgroups := h.map_group?_eq clauses
  induction h with
  | nil => exact .nil
  | @cons document other documents others hdata hrest ih =>
    obtain ⟨hfirst, hgroups⟩ := List.cons.inj hgroups
    rw [Rollup.membersOf, Rollup.membersOf, List.filter_cons, List.filter_cons, hfirst]
    split
    · exact .cons hdata (ih hgroups)
    · exact ih hgroups

/-- Grouping both lists fails alike. -/
theorem RespellDocuments.groupDocuments_eq_error_iff (spec : Spec) (clauses : List Clause)
    (error : EvalError) :
    groupDocuments spec clauses documents = .error error ↔
      groupDocuments spec clauses others = .error error := by
  rw [groupDocuments_eq_error_iff_mapM, groupDocuments_eq_error_iff_mapM]
  exact (sameOutcome_mapM (h.imp fun _ _ hdata => hdata.groupKey clauses)).eq_error_iff error

/-- At a path both lists have values that are respellings of one another. -/
theorem RespellDocuments.valuesAt (field : String) :
    List.Forall₂ Value.Respells (valuesAt field (documents.map Document.data))
      (valuesAt field (others.map Document.data)) := by
  have hdata : List.Forall₂ Value.Respells (documents.map Document.data)
      (others.map Document.data) := by
    rw [List.forall₂_map_left_iff, List.forall₂_map_right_iff]
    exact h
  exact List.rel_filterMap (fun _ _ hvalue => hvalue.resolvePresent? field) hdata

end Groups

/-- Two records of the same documents, spelled in two ways, agree. -/
structure Value.RecordsAgree (record other : Value) : Prop where
  /-- Both records have keys of one canonical form, or none of them has a key. -/
  key : Option.Rel
    (fun k l => ∃ ks ls, k = array ks ∧ l = array ls ∧ canonicalKey ks = canonicalKey ls)
    (record.descend? ["key"]) (other.descend? ["key"])
  /-- The totals are the same value, or missing together. -/
  total : record.descend? ["total"] = other.descend? ["total"]
  /-- The counts, sums and averages of a field are the same values, or missing together. -/
  exact : ∀ field, ∀ stat ∈ [Stat.count, .sum, .avg],
    record.descend? ["stats", field, stat.name] = other.descend? ["stats", field, stat.name]
  /-- The extremes of a field compare as equal, or are missing together. -/
  extremes : ∀ field, ∀ stat ∈ [Stat.min, .max],
    Option.Rel (fun a b => a.compare? b = some .eq)
      (record.descend? ["stats", field, stat.name]) (other.descend? ["stats", field, stat.name])

section Records

variable {spec : Spec} {documents others : List Document} (h : RespellDocuments documents others)
include h

/-- A statistic is shown in neither of two pruned records, or in both by statistics in step. -/
theorem Bucket.prune_statistic_cases {bucket other : Bucket}
    (hbucket : bucket.tally = .ofData spec (documents.map Document.data))
    (hother : other.tally = .ofData spec (others.map Document.data))
    (hsafe : ∀ field ∈ spec.stats.keys, Number.SafelyAddable (numbersAt field documents))
    (field : String) (stat : Stat) :
    ((spec.prune (bucket.toRecord spec)).descend? ["stats", field, stat.name] = none ∧
      (spec.prune (other.toRecord spec)).descend? ["stats", field, stat.name] = none) ∨
    ∃ (sum : Int) (values respelled : List Value), sum.natAbs ≤ Number.maxSafeInteger ∧
      FieldStats.InStep sum (.ofValues values) (.ofValues respelled) ∧
      (spec.prune (bucket.toRecord spec)).descend? ["stats", field, stat.name] =
        (FieldStats.ofValues values).statistic? stat ∧
      (spec.prune (other.toRecord spec)).descend? ["stats", field, stat.name] =
        (FieldStats.ofValues respelled).statistic? stat := by
  have hnil : documents.map Document.data = [] ↔ others.map Document.data = [] := by
    rw [List.map_eq_nil_iff, List.map_eq_nil_iff, ← List.length_eq_zero_iff,
      ← List.length_eq_zero_iff, h.length_eq]
  rw [descend?_prune_statistic, descend?_prune_statistic]
  by_cases hrequested : spec.requests field stat.name
  · have hfield := spec.mem_keys_of_requests hrequested
    rw [if_pos hrequested, if_pos hrequested, descend?_statistic_ofData spec hbucket hfield,
      descend?_statistic_ofData spec hother hfield]
    by_cases hempty : documents.map Document.data = []
    · exact Or.inl ⟨if_pos hempty, if_pos (hnil.mp hempty)⟩
    · obtain ⟨sum, hsum, hstep⟩ :=
        FieldStats.exists_inStep_ofValues (h.valuesAt field) (hsafe field hfield)
      exact Or.inr ⟨sum, _, _, hsum, hstep, if_neg hempty, if_neg (mt hnil.mpr hempty)⟩
  · exact Or.inl ⟨if_neg hrequested, if_neg hrequested⟩

/-- The record of documents and that of their respellings agree. -/
theorem Bucket.recordsAgree_prune {bucket other : Bucket}
    (hgroup : bucket.group? = other.group?)
    (hbucket : bucket.tally = .ofData spec (documents.map Document.data))
    (hother : other.tally = .ofData spec (others.map Document.data))
    (hsafe : ∀ field ∈ spec.stats.keys, Number.SafelyAddable (numbersAt field documents)) :
    (spec.prune (bucket.toRecord spec)).RecordsAgree (spec.prune (other.toRecord spec)) := by
  constructor
  · rw [descend?_prune_key, descend?_prune_key]
    rw [group?, group?] at hgroup
    cases hkey : bucket.key with
    | none =>
      rw [hkey, Option.map_none, eq_comm, Option.map_eq_none_iff] at hgroup
      rw [hgroup]
      exact .none
    | some key =>
      rw [hkey, Option.map_some, eq_comm, Option.map_eq_some_iff] at hgroup
      obtain ⟨otherKey, hother, hcanonical⟩ := hgroup
      rw [hother]
      exact .some ⟨_, _, rfl, rfl, hcanonical.symm⟩
  · rw [descend?_prune_total, descend?_prune_total, descend?_toRecord_total,
      descend?_toRecord_total, hbucket, hother, Tally.total_ofData, Tally.total_ofData,
      List.length_map, List.length_map, h.length_eq]
  · intro field stat hstat
    rcases prune_statistic_cases h hbucket hother hsafe field stat with
      ⟨hleft, hright⟩ | ⟨sum, values, respelled, hsum, hstep, hleft, hright⟩
    · rw [hleft, hright]
    · rw [hleft, hright, hstep.statistic?_eq hsum hstat]
  · intro field stat hstat
    rcases prune_statistic_cases h hbucket hother hsafe field stat with
      ⟨hleft, hright⟩ | ⟨sum, values, respelled, hsum, hstep, hleft, hright⟩
    · rw [hleft, hright]
      exact .none
    · rw [hleft, hright]
      exact hstep.rel_statistic? hstat

end Records

/-- The parts of documents that have a record each: the groups, or else all documents. -/
def Spec.partsOf (spec : Spec) (documents : List Document) : List (List Document) :=
  match spec.groupBy with
  | none => [documents]
  | some clauses => (groupsOf clauses documents).map (membersOf clauses documents)

/-- What is safely addable over all documents is so over every part of them. -/
theorem Spec.safelyAddable_of_mem_partsOf (spec : Spec) {documents part : List Document}
    {field : String} (h : Number.SafelyAddable (numbersAt field documents))
    (hpart : part ∈ spec.partsOf documents) : Number.SafelyAddable (numbersAt field part) := by
  rw [partsOf] at hpart
  split at hpart
  · rwa [List.mem_singleton.mp hpart]
  · obtain ⟨group, -, rfl⟩ := List.mem_map.mp hpart
    exact h.sublist (numbersAt_membersOf_sublist group)

/-- Two results of the same documents, spelled in two ways, agree. -/
inductive EvalResult.Agree : EvalResult → EvalResult → Prop where
  /-- The records over all documents agree, and the reported totals are the same. -/
  | overall {record other : Value} {total : Option Nat} (h : record.RecordsAgree other) :
      Agree (.overall record total) (.overall other total)
  /-- The records of the groups agree one by one, and the reported totals are the same. -/
  | grouped {records others : List Value} {total : Option Nat}
      (h : List.Forall₂ Value.RecordsAgree records others) :
      Agree (.grouped records total) (.grouped others total)

section Evaluation

variable {spec : Spec} {documents others : List Document} (h : RespellDocuments documents others)
include h

/-- The records over all documents agree. -/
theorem RespellDocuments.recordsAgree_overallRecord
    (hsafe : ∀ field ∈ spec.stats.keys, Number.SafelyAddable (numbersAt field documents)) :
    (overallRecord spec documents).RecordsAgree (overallRecord spec others) := by
  cases h with
  | nil => exact ⟨.none, rfl, fun _ _ _ => rfl, fun _ _ _ => .none⟩
  | cons hfirst hrest =>
    rw [overallRecord_cons, overallRecord_cons]
    exact Bucket.recordsAgree_prune (.cons hfirst hrest) rfl rfl rfl hsafe

/-- The records of the buckets agree one by one. -/
theorem RespellDocuments.recordsAgree_toList {clauses : List Clause}
    {table otherTable : BucketTable}
    (htable : groupDocuments spec clauses documents = .ok table)
    (hother : groupDocuments spec clauses others = .ok otherTable)
    (hsafe : ∀ group ∈ groupsOf clauses documents, ∀ field ∈ spec.stats.keys,
      Number.SafelyAddable (numbersAt field (Rollup.membersOf clauses documents group))) :
    List.Forall₂ Value.RecordsAgree
      (table.toList.map fun bucket => spec.prune (bucket.toRecord spec))
      (otherTable.toList.map fun bucket => spec.prune (bucket.toRecord spec)) := by
  have hkeys := exists_groupDocuments_eq_ok_iff.mp ⟨table, htable⟩
  have hotherKeys := exists_groupDocuments_eq_ok_iff.mp ⟨otherTable, hother⟩
  have hgroups := h.groupsOf_eq clauses
  rw [toList_of_groupDocuments spec htable, toList_of_groupDocuments spec hother, ← hgroups,
    List.map_map, List.map_map, List.forall₂_map_left_iff, List.forall₂_map_right_iff,
    List.forall₂_same]
  intro group hgroup
  have hname := hgroup
  have hotherName := hgroup
  rw [← canonicals_map_access spec hkeys] at hname
  rw [hgroups, ← canonicals_map_access spec hotherKeys] at hotherName
  have hgroup? := (Access.group?_bucketOf hname).trans (Access.group?_bucketOf hotherName).symm
  exact Bucket.recordsAgree_prune (h.membersOf clauses group) hgroup?
    (tally_bucketOf_map_access spec hkeys group) (tally_bucketOf_map_access spec hotherKeys group)
    (hsafe group hgroup)

end Evaluation

/-- The spelling of numbers does not matter in the safe range. Let some documents and others be
equal except for safe integers that the others spell as floating-point numbers, and let the numbers
of every field with statistics be integer-valued and small enough to add up safely, in each part
that has a record. Without sorting and paging, both evaluations then fail with the same error, or
give records that agree one by one; and the two documents at one position are in the same group. -/
theorem evaluate_respelled {documents others : List Document}
    (h : RespellDocuments documents others) (spec : Spec) (options : EvalOptions)
    (hsort : options.sort = []) (hskip : options.skip = 0) (hlimit : options.limit.getD 0 = 0)
    (hsafe : ∀ part ∈ spec.partsOf documents, ∀ field ∈ spec.stats.keys,
      Number.SafelyAddable (numbersAt field part)) :
    SameOutcome EvalResult.Agree (evaluate documents spec options) (evaluate others spec options) ∧
    ∀ clauses, spec.groupBy = some clauses →
      documents.map (Document.group? clauses) = others.map (Document.group? clauses) := by
  refine ⟨?_, fun clauses _ => h.map_group?_eq clauses⟩
  cases hvalid : spec.validate with
  | error cause =>
    rw [evaluate_of_validate_eq_error hvalid, evaluate_of_validate_eq_error hvalid]
    exact .error _
  | ok _ =>
    cases hgroup : spec.groupBy with
    | none =>
      rw [Spec.partsOf, hgroup] at hsafe
      rw [evaluate_of_groupBy_eq_none hvalid hgroup, evaluate_of_groupBy_eq_none hvalid hgroup,
        ← h.length_eq]
      exact .ok (.overall (h.recordsAgree_overallRecord (hsafe documents List.mem_cons_self)))
    | some clauses =>
      rw [Spec.partsOf, hgroup, List.forall_mem_map] at hsafe
      cases htable : groupDocuments spec clauses documents with
      | error error =>
        have hother := (h.groupDocuments_eq_error_iff spec clauses error).mp htable
        rw [evaluate_of_groupDocuments_eq_error hvalid hgroup htable,
          evaluate_of_groupDocuments_eq_error hvalid hgroup hother]
        exact .error _
      | ok table =>
        obtain ⟨otherTable, hother⟩ : ∃ table, groupDocuments spec clauses others = .ok table := by
          rw [exists_eq_ok_iff]
          intro error herror
          rw [(h.groupDocuments_eq_error_iff spec clauses error).mpr herror] at htable
          cases htable
        have hrecords := h.recordsAgree_toList htable hother hsafe
        have hsize : table.size = otherTable.size := by
          simpa [BucketTable.toList, BucketTable.size] using hrecords.length_eq
        rw [evaluate_grouped hvalid hgroup htable, evaluate_grouped hvalid hgroup hother,
          shapeRecords_plain spec _ hsort hskip hlimit,
          shapeRecords_plain spec _ hsort hskip hlimit, hsize]
        exact .ok (.grouped hrecords)

/-- Every safe integer is respelled by the floating-point number of its value. -/
theorem Value.respells_safeFloat {n : Int} (h : n.natAbs ≤ Number.maxSafeInteger) :
    (int n).Respells (safeFloat n h) :=
  .number (Number.respells_ofSafe h)

/-- Documents with an age and a coded kind, all numbers of which are integers. -/
def codedDocuments : List Document := [
  ⟨[("age", .int 5), ("kind", .object [("code", .int 2)])]⟩,
  ⟨[("age", .int (-3)), ("kind", .object [("code", .int 2)])]⟩,
  ⟨[("age", .int 7), ("kind", .object [("code", .int 2)])]⟩]

/-- The same documents with some of the ages and codes as floating-point numbers. -/
def respelledDocuments : List Document := [
  ⟨[("age", .safeFloat 5), ("kind", .object [("code", .int 2)])]⟩,
  ⟨[("age", .int (-3)), ("kind", .object [("code", .safeFloat 2)])]⟩,
  ⟨[("age", .safeFloat 7), ("kind", .object [("code", .safeFloat 2)])]⟩]

/-- All statistics of the ages and the number of documents, by kind and by the sign of the age. -/
def agesByKindAndSign : Spec where
  groupBy := some [⟨"kind", .value⟩,
    ⟨"age", .ranges [⟨none, some (.int 0)⟩, ⟨some (.int 0), none⟩]⟩]
  stats := SortedMap.empty.insert "age" (StatSet.ofList Stat.all)
  total := true

/-- Both spellings of the coded documents give records, and these agree. -/
theorem evaluate_codedDocuments_respelled :
    RespellDocuments codedDocuments respelledDocuments ∧
    (∀ part ∈ agesByKindAndSign.partsOf codedDocuments, ∀ field ∈ agesByKindAndSign.stats.keys,
      Number.SafelyAddable (numbersAt field part)) ∧
    ∃ result other,
      evaluate codedDocuments agesByKindAndSign { total := true } = .ok result ∧
      evaluate respelledDocuments agesByKindAndSign { total := true } = .ok other ∧
      result.Agree other := by
  have hrespell : RespellDocuments codedDocuments respelledDocuments := by
    have hkeep (n : Int) : (Value.int n).Respells (.int n) := .number (.same _)
    have hcode := Value.respells_safeFloat (n := 2) (by decide)
    refine .cons ?_ (.cons ?_ (.cons ?_ .nil))
    · exact .object (.cons (Value.respells_safeFloat _)
        (.cons (.object (.cons (hkeep 2) .nil)) .nil))
    · exact .object (.cons (hkeep (-3)) (.cons (.object (.cons hcode .nil)) .nil))
    · exact .object (.cons (Value.respells_safeFloat _) (.cons (.object (.cons hcode .nil)) .nil))
  have hages : numbersAt "age" codedDocuments = [.integer 5, .integer (-3), .integer 7] := by
    decide +kernel
  have haddable : Number.SafelyAddable (numbersAt "age" codedDocuments) := by
    rw [hages]
    exact ⟨by simp [Number.value], by simp [Number.value, Number.maxSafeInteger]⟩
  have hsafe : ∀ part ∈ agesByKindAndSign.partsOf codedDocuments,
      ∀ field ∈ agesByKindAndSign.stats.keys, Number.SafelyAddable (numbersAt field part) := by
    intro part hpart field hfield
    obtain rfl := List.mem_singleton.mp hfield
    exact agesByKindAndSign.safelyAddable_of_mem_partsOf haddable hpart
  have hsuccess :
      (evaluate codedDocuments agesByKindAndSign { total := true }).toOption.isSome := by
    decide +kernel
  obtain ⟨houtcome, -⟩ :=
    evaluate_respelled hrespell agesByKindAndSign { total := true } rfl rfl rfl hsafe
  generalize evaluate codedDocuments agesByKindAndSign _ = x at houtcome hsuccess ⊢
  generalize evaluate respelledDocuments agesByKindAndSign _ = y at houtcome ⊢
  cases houtcome with
  | error error => cases hsuccess
  | ok hagree => exact ⟨hrespell, hsafe, _, _, rfl, rfl, hagree⟩

end Rollup
