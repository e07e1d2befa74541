import Rollup.Aggregate.Evaluation
import Rollup.Proofs.Traversal

/-!
# When an evaluation fails

An evaluation with a spec that is not valid fails with what is wrong with the spec. With a valid
spec and no grouping it never fails. With a grouping it fails exactly if some clause cannot group
some document (`Offends`), and the error names the first such clause on the first such document
(`FirstOffence`); neither the statistics nor the options take part in this.
-/

namespace Rollup

/-- A clause cannot group a document: its field holds an array, or it asks for a component of a time
and its field holds anything else but null. -/
inductive Offends (document : Document) (clause : Clause) : UnsupportedReason → Prop
  | array {items : List Value}
      (hfield : document.data.resolve? clause.field = some (.array items)) :
      Offends document clause .arrayField
  | time {component : String} {value : Value}
      (hbucketing : clause.bucketing = .timeComponent component)
      (hfield : document.data.resolve? clause.field = some value)
      (hnull : value.isNull = false) (harray : value.isArray = false) :
      Offends document clause (.timeComponent component)

/-- The clause at a position cannot group the document at a position, which gives an error. -/
def OffendsAt (documents : List Document) (clauses : List Clause) (i j : Nat)
    (error : EvalError) : Prop :=
  ∃ document clause reason, documents[i]? = some document ∧ clauses[j]? = some clause ∧
    Offends document clause reason ∧ error = .unsupported clause.field reason

/-- Of all pairs of a document and a clause that cannot group it, the one at these positions comes
first, by the document and then by the clause. -/
structure FirstOffence (documents : List Document) (clauses : List Clause) (i j : Nat)
    (error : EvalError) : Prop where
  /-- The clause cannot group the document. -/
  offends : OffendsAt documents clauses i j error
  /-- No other pair comes before. -/
  first : ∀ k l other, OffendsAt documents clauses k l other → i < k ∨ i = k ∧ j ≤ l

section Clauses

variable {document : Document} {clause : Clause} {clauses : List Clause} {error : EvalError}

/-- A clause fails on a document exactly if it cannot group it. -/
theorem Clause.key_eq_error_iff :
    clause.key document.data = .error error ↔
      ∃ reason, Offends document clause reason ∧ error = .unsupported clause.field reason := by
  constructor
  · intro h
    rw [Clause.key] at h
    cases hpresent : document.data.resolvePresent? clause.field with
    | none =>
      rw [hpresent] at h
      cases h
    | some value =>
      obtain ⟨hfield, hnull⟩ := Option.filter_eq_some_iff.mp hpresent
      have hkey : clause.keyOf value = .error error := by rwa [hpresent] at h
      rw [Clause.keyOf] at hkey
      split at hkey
      · next harray =>
        cases value with
        | array items =>
          cases hkey
          exact ⟨.arrayField, .array hfield, rfl⟩
        | _ => cases harray
      · next harray =>
        split at hkey
        · cases hkey
        · cases hkey
        · cases hkey
        · next component hbucketing =>
          cases hkey
          exact ⟨.timeComponent component,
            .time hbucketing hfield (by simpa using hnull) (by simpa using harray), rfl⟩
  · rintro ⟨reason, hoffends, rfl⟩
    cases hoffends with
    | array hfield =>
      rw [Clause.key, Value.resolvePresent?, hfield]
      rfl
    | time hbucketing hfield hnull harray =>
      rw [Clause.key, Value.resolvePresent?, hfield, Option.filter_some, hnull]
      simp [Clause.keyOf, harray, hbucketing]

/-- A clause succeeds on a document exactly if it can group it. -/
theorem Clause.exists_key_eq_ok_iff :
    (∃ value, clause.key document.data = .ok value) ↔
      ∀ reason, ¬ Offends document clause reason := by
  constructor
  · rintro ⟨value, hvalue⟩ reason hoffends
    have herror := Clause.key_eq_error_iff.mpr ⟨reason, hoffends, rfl⟩
    rw [hvalue] at herror
    cases herror
  · intro h
    rw [exists_eq_ok_iff]
    intro error herror
    obtain ⟨reason, hoffends, _⟩ := Clause.key_eq_error_iff.mp herror
    exact h reason hoffends

/-- A document has no group key exactly if a clause cannot group it; the first such clause gives the
error. -/
theorem groupKey_eq_error_iff :
    groupKey document.data clauses = .error error ↔
      ∃ (j : Nat) (clause : Clause) (reason : UnsupportedReason), clauses[j]? = some clause ∧
        Offends document clause reason ∧ error = .unsupported clause.field reason ∧
        ∀ l < j, ∀ other, clauses[l]? = some other → ∀ reason, ¬ Offends document other reason := by
  simp only [groupKey, mapM_eq_error_iff, Clause.key_eq_error_iff, Clause.exists_key_eq_ok_iff]
  constructor
  · rintro ⟨j, clause, hclause, ⟨reason, hoffends, herror⟩, hbefore⟩
    exact ⟨j, clause, reason, hclause, hoffends, herror, hbefore⟩
  · rintro ⟨j, clause, reason, hclause, hoffends, herror, hbefore⟩
    exact ⟨j, clause, hclause, ⟨reason, hoffends, herror⟩, hbefore⟩

/-- A document has a group key exactly if every clause can group it. -/
theorem exists_groupKey_eq_ok_iff :
    (∃ key, groupKey document.data clauses = .ok key) ↔
      ∀ clause ∈ clauses, ∀ reason, ¬ Offends document clause reason := by
  simp only [groupKey, exists_mapM_eq_ok_iff, Clause.exists_key_eq_ok_iff]

end Clauses

section Documents

variable {spec : Spec} {documents : List Document} {clauses : List Clause} {error : EvalError}

private theorem foldlM_groupDocument_eq_error_iff (table : BucketTable) :
    documents.foldlM (groupDocument spec clauses) table = .error error ↔
      documents.mapM (fun document => groupKey document.data clauses) = .error error := by
  induction documents generalizing table with
  | nil => simp [pure, Except.pure]
  | cons document documents ih =>
    rw [List.foldlM_cons, mapM_cons_eq_error_iff, groupDocument]
    cases groupKey document.data clauses with
    | error cause => simp [bind, Except.bind]
    | ok key =>
      simp only [reduceCtorEq, false_or, Except.ok.injEq, exists_eq', true_and]
      exact ih _

/-- Grouping documents fails exactly as computing their keys in order does. -/
theorem groupDocuments_eq_error_iff_mapM :
    groupDocuments spec clauses documents = .error error ↔
      documents.mapM (fun document => groupKey document.data clauses) = .error error :=
  foldlM_groupDocument_eq_error_iff .empty

/-- Grouping documents succeeds exactly if every document has a group key. -/
theorem exists_groupDocuments_eq_ok_iff :
    (∃ table, groupDocuments spec clauses documents = .ok table) ↔
      ∀ document ∈ documents, ∃ key, groupKey document.data clauses = .ok key := by
  rw [← exists_mapM_eq_ok_iff, exists_eq_ok_iff, exists_eq_ok_iff]
  exact forall_congr' fun error => not_congr groupDocuments_eq_error_iff_mapM

/-- Grouping documents fails exactly if some clause cannot group some document. -/
theorem exists_groupDocuments_eq_error_iff :
    (∃ error, groupDocuments spec clauses documents = .error error) ↔
      ∃ document ∈ documents, ∃ clause ∈ clauses, ∃ reason, Offends document clause reason := by
  have hsuccess : (∃ table, groupDocuments spec clauses documents = .ok table) ↔
      ∀ document ∈ documents, ∀ clause ∈ clauses, ∀ reason, ¬ Offends document clause reason := by
    simp only [exists_groupDocuments_eq_ok_iff, exists_groupKey_eq_ok_iff]
  rw [exists_eq_ok_iff] at hsuccess
  simpa using not_congr hsuccess

/-- Grouping documents fails with the error of the first clause that cannot group the first
document. -/
theorem groupDocuments_eq_error_iff :
    groupDocuments spec clauses documents = .error error ↔
      ∃ i j, FirstOffence documents clauses i j error := by
  rw [groupDocuments_eq_error_iff_mapM, mapM_eq_error_iff]
  constructor
  · rintro ⟨i, document, hdocument, herror, hdocuments⟩
    obtain ⟨j, clause, reason, hclause, hoffends, herror, hclauses⟩ :=
      groupKey_eq_error_iff.mp herror
    refine ⟨i, j, ⟨document, clause, reason, hdocument, hclause, hoffends, herror⟩, ?_⟩
    rintro k l other ⟨document', clause', reason', hdocument', hclause', hoffends', -⟩
    rcases Nat.lt_trichotomy k i with hlt | rfl | hgt
    · have hgroups := exists_groupKey_eq_ok_iff.mp (hdocuments k hlt document' hdocument')
      exact absurd hoffends' (hgroups clause' (List.mem_of_getElem? hclause') reason')
    · obtain rfl : document = document' := by
        rw [hdocument] at hdocument'
        exact Option.some.inj hdocument'
      refine Or.inr ⟨rfl, Nat.le_of_not_lt fun hlt => ?_⟩
      exact hclauses l hlt clause' hclause' reason' hoffends'
    · exact Or.inl hgt
  · rintro ⟨i, j, ⟨document, clause, reason, hdocument, hclause, hoffends, herror⟩, hfirst⟩
    refine ⟨i, document, hdocument, groupKey_eq_error_iff.mpr
      ⟨j, clause, reason, hclause, hoffends, herror, ?_⟩, ?_⟩
    · intro l hl other hother reason' hoffends'
      have hle := hfirst i l _ ⟨document, other, reason', hdocument, hother, hoffends', rfl⟩
      omega
    · intro k hk document' hdocument'
      rw [exists_groupKey_eq_ok_iff]
      intro clause' hmem reason' hoffends'
      obtain ⟨l, hclause'⟩ := List.getElem?_of_mem hmem
      have hle := hfirst k l _ ⟨document', clause', reason', hdocument', hclause', hoffends', rfl⟩
      omega

end Documents

section Evaluation

variable {spec : Spec}

/-- A spec that is not valid fails every evaluation. -/
theorem evaluate_of_validate_eq_error {cause : SpecError} (h : spec.validate = .error cause)
    (documents : List Document) (options : EvalOptions) :
    evaluate documents spec options = .error (.malformedSpec cause) := by
  rw [evaluate, h]
  rfl

/-- A valid spec without a grouping gives a result. -/
theorem evaluate_of_groupBy_eq_none (hvalid : spec.validate = .ok ()) (hgroup : spec.groupBy = none)
    (documents : List Document) (options : EvalOptions) :
    evaluate documents spec options =
      .ok (.overall (overallRecord spec documents) (options.report documents.length)) := by
  rw [evaluate, hvalid, hgroup]
  rfl

/-- A valid spec with a grouping fails if the documents cannot be grouped. -/
theorem evaluate_of_groupDocuments_eq_error {clauses : List Clause} {documents : List Document}
    {error : EvalError} (hvalid : spec.validate = .ok ()) (hgroup : spec.groupBy = some clauses)
    (herror : groupDocuments spec clauses documents = .error error) (options : EvalOptions) :
    evaluate documents spec options = .error error := by
  rw [evaluate, hvalid, hgroup]
  simp only [herror]
  rfl

/-- A valid spec with a grouping gives the records of its table of buckets. -/
theorem evaluate_grouped {clauses : List Clause} {documents : List Document} {table : BucketTable}
    (hvalid : spec.validate = .ok ()) (hgroup : spec.groupBy = some clauses)
    (htable : groupDocuments spec clauses documents = .ok table) (options : EvalOptions) :
    evaluate documents spec options =
      .ok (.grouped (shapeRecords spec options table.toList) (options.report table.size)) := by
  rw [evaluate, hvalid, hgroup]
  simp only [htable]
  rfl

/-- With a valid spec an evaluation fails exactly as grouping the documents does. -/
theorem evaluate_eq_error_iff_groupDocuments {clauses : List Clause}
    (hvalid : spec.validate = .ok ()) (hgroup : spec.groupBy = some clauses)
    (documents : List Document) (options : EvalOptions) (error : EvalError) :
    evaluate documents spec options = .error error ↔
      groupDocuments spec clauses documents = .error error := by
  cases houtcome : groupDocuments spec clauses documents with
  | error cause =>
    rw [evaluate_of_groupDocuments_eq_error hvalid hgroup houtcome, Except.error.injEq,
      Except.error.injEq]
  | ok table =>
    rw [evaluate_grouped hvalid hgroup houtcome]
    simp

end Evaluation

/-- An evaluation fails exactly when it must. What is wrong with the spec comes first, whatever the
documents; a valid spec without a grouping never fails; with a grouping the error is that of the
first offence, and nothing but the grouping decides it. -/
theorem evaluate_eq_error_iff_firstOffence (documents : List Document) (spec : Spec)
    (options : EvalOptions) :
    (∀ cause, spec.validate = .error cause →
      evaluate documents spec options = .error (.malformedSpec cause)) ∧
    (spec.validate = .ok () → spec.groupBy = none →
      ∃ result, evaluate documents spec options = .ok result) ∧
    (∀ clauses, spec.validate = .ok () → spec.groupBy = some clauses →
      ((∃ error, evaluate documents spec options = .error error) ↔
        ∃ document ∈ documents, ∃ clause ∈ clauses, ∃ reason, Offends document clause reason) ∧
      (∀ error, evaluate documents spec options = .error error ↔
        ∃ i j, FirstOffence documents clauses i j error) ∧
      ∀ (other : Spec) (otherOptions : EvalOptions), other.validate = .ok () →
        other.groupBy = some clauses → ∀ error,
          evaluate documents other otherOptions = .error error ↔
            evaluate documents spec options = .error error) := by
  refine ⟨?_, ?_, ?_⟩
  · intro cause hcause
    exact evaluate_of_validate_eq_error hcause documents options
  · intro hvalid hgroup
    exact ⟨_, evaluate_of_groupBy_eq_none hvalid hgroup documents options⟩
  · intro clauses hvalid hgroup
    have hspec := evaluate_eq_error_iff_groupDocuments hvalid hgroup documents options
    refine ⟨?_, ?_, ?_⟩
    · rw [← exists_groupDocuments_eq_error_iff]
      exact exists_congr hspec
    · intro error
      rw [hspec, groupDocuments_eq_error_iff]
    · intro other otherOptions hother hotherGroup error
      rw [evaluate_eq_error_iff_groupDocuments hother hotherGroup, hspec,
        groupDocuments_eq_error_iff, groupDocuments_eq_error_iff]

/-- Documents of which the second cannot be grouped by the year of birth, and the third not even by
its tags. -/
def untimelyDocuments : List Document := [
  ⟨[("born", .null), ("tags", .string "solo")]⟩,
  ⟨[("born", .string "2016-01-01")]⟩,
  ⟨[("tags", .array [.string "a", .string "b"])]⟩]

/-- A grouping by tags and by the year of birth. -/
def tagsAndYear : List Clause := [⟨"tags", .value⟩, ⟨"born", .timeComponent "year"⟩]

/-- Of the untimely documents the second decides the error, whatever is counted and sorted. -/
theorem evaluate_untimelyDocuments_eq_error :
    Spec.validate { groupBy := some tagsAndYear, total := true } = .ok () ∧
    FirstOffence untimelyDocuments tagsAndYear 1 1
      (.unsupported "born" (.timeComponent "year")) ∧
    evaluate untimelyDocuments { groupBy := some tagsAndYear, total := true }
      { sort := [⟨"total", .descending⟩], limit := some 1 } =
        .error (.unsupported "born" (.timeComponent "year")) := by
  have hvalid : Spec.validate { groupBy := some tagsAndYear, total := true } = .ok () := by cbv
  have hfirst : FirstOffence untimelyDocuments tagsAndYear 1 1
      (.unsupported "born" (.timeComponent "year")) := by
    constructor
    · exact ⟨_, _, .timeComponent "year", rfl, rfl, .time rfl rfl rfl rfl, rfl⟩
    · rintro k l other ⟨document, clause, reason, hdocument, hclause, hoffends, -⟩
      have herror := Clause.key_eq_error_iff.mpr ⟨reason, hoffends, rfl⟩
      match k, l with
      | 0, 0 | 0, 1 | 1, 0 =>
        cases hdocument
        cases hclause
        cases herror
      | 0, l + 2 => cases hclause
      | 1, l + 1 => exact Or.inr ⟨rfl, Nat.le_add_left 1 l⟩
      | k + 2, l => exact Or.inl (by omega)
  have h := (evaluate_eq_error_iff_firstOffence untimelyDocuments
    { groupBy := some tagsAndYear, total := true }
    { sort := [⟨"total", .descending⟩], limit := some 1 }).2.2 tagsAndYear hvalid rfl
  exact ⟨hvalid, hfirst, (h.2.1 _).mpr ⟨1, 1, hfirst⟩⟩

end Rollup
