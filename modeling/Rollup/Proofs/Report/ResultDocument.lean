import Rollup.Proofs.Aggregate.RecordShape

/-!
# The document of a result

A result is put out as one document: as its record or its records alone, or wrapped together with
the reported number. A record with the members `result` and `total` of a wrapper could be taken for
one (`EvalResult.toValue_eq_iff`). Evaluation makes no such record, so the document of an evaluation
says which result it is of.
-/

namespace Rollup

/-- The value is an object, and its members have the names of members of records. -/
def Value.IsRecord (value : Value) : Prop :=
  ∃ members, value = .object members ∧ ∀ member ∈ members, member.1 ∈ ["key", "stats", "total"]

namespace EvalResult

/-- Two results have one document exactly if they are the same or one of them is, alone and without
a number, the document of the other as a record. -/
theorem toValue_eq_iff {result other : EvalResult} :
    result.toValue = other.toValue ↔
      result = other ∨ result = .overall other.toValue none ∨
        other = .overall result.toValue none := by
  constructor
  · intro h
    cases result with
    | overall record total =>
      cases total with
      | none => exact Or.inr (Or.inl (congrArg (overall · none) h))
      | some total =>
        cases other with
        | overall _ otherTotal => cases otherTotal <;> simp_all [toValue, Value.nat, Value.int]
        | grouped _ otherTotal => cases otherTotal <;> simp [toValue] at h
    | grouped records total =>
      cases other with
      | overall _ otherTotal => cases total <;> cases otherTotal <;> simp_all [toValue]
      | grouped _ otherTotal =>
        cases total <;> cases otherTotal <;> simp_all [toValue, Value.nat, Value.int]
  · rintro (rfl | h | h)
    · rfl
    · rw [h]
      rfl
    · rw [h]
      rfl

/-- A document that is a record is that of the record alone. -/
theorem eq_overall_of_isRecord {result : EvalResult} (h : result.toValue.IsRecord) :
    result = .overall result.toValue none := by
  obtain ⟨members, hobject, hnames⟩ := h
  cases result with
  | overall record total =>
    cases total with
    | none => rfl
    | some total =>
      cases hobject
      have hname : "result" ∈ ["key", "stats", "total"] := hnames _ List.mem_cons_self
      exact absurd hname (by decide)
  | grouped records total =>
    cases total with
    | none => cases hobject
    | some total =>
      cases hobject
      have hname : "results" ∈ ["key", "stats", "total"] := hnames _ List.mem_cons_self
      exact absurd hname (by decide)

/-- A wrapped document is no record. -/
theorem not_isRecord_toValue {result : EvalResult} (h : result.total.isSome = true) :
    ¬ result.toValue.IsRecord := by
  intro hrecord
  rw [eq_overall_of_isRecord hrecord] at h
  cases h

/-- A result that is the document of another as a record is that other result, if its record is one
indeed. -/
theorem eq_of_eq_overall {result other : EvalResult}
    (hrecords : ∀ record ∈ result.records, record.IsRecord)
    (h : result = .overall other.toValue none) : result = other := by
  have hrecord : other.toValue.IsRecord := by
    apply hrecords
    rw [h]
    exact List.mem_singleton_self _
  exact h.trans (eq_overall_of_isRecord hrecord).symm

/-- Results whose records have no other members than records have are told apart by their
documents. -/
theorem eq_of_toValue_eq {result other : EvalResult}
    (hrecords : ∀ record ∈ result.records, record.IsRecord)
    (hothers : ∀ record ∈ other.records, record.IsRecord)
    (h : result.toValue = other.toValue) : result = other := by
  rcases toValue_eq_iff.mp h with heq | hresult | hother
  · exact heq
  · exact eq_of_eq_overall hrecords hresult
  · exact (eq_of_eq_overall hothers hother).symm

end EvalResult

/-- The records of an evaluation have the members of records. -/
theorem isRecord_of_mem_records {documents : List Document} {spec : Spec} {options : EvalOptions}
    {result : EvalResult} (hrun : evaluate documents spec options = .ok result) :
    ∀ record ∈ result.records, record.IsRecord := by
  intro record hrecord
  obtain ⟨key, part, -, rfl⟩ := exists_isGroup_of_mem_records hrun hrecord
  refine ⟨_, rfl, fun member hmember => ?_⟩
  exact (spec.names_shownMembers_sublist key part).subset (List.mem_map_of_mem hmember)

/-- Results of evaluations, be it of different documents, specs and options, have different
documents if they are different: in the records, in the reported number, or because only one of them
is grouped. A document with a reported number is not the record of any evaluation, so the number is
never taken for the total of a record. -/
theorem evaluate_toValue_inj {documents others : List Document} {spec otherSpec : Spec}
    {options otherOptions : EvalOptions} {result other : EvalResult}
    (hrun : evaluate documents spec options = .ok result)
    (hother : evaluate others otherSpec otherOptions = .ok other) :
    (result.toValue = other.toValue → result = other) ∧
      (other.total.isSome = true → ∀ record ∈ result.records, record ≠ other.toValue) := by
  constructor
  · exact EvalResult.eq_of_toValue_eq (isRecord_of_mem_records hrun)
      (isRecord_of_mem_records hother)
  · intro htotal record hrecord heq
    have hisRecord := isRecord_of_mem_records hrun record hrecord
    rw [heq] at hisRecord
    exact EvalResult.not_isRecord_toValue htotal hisRecord

/-- Two documents without members. -/
def twoDocuments : List Document := [⟨[]⟩, ⟨[]⟩]

/-- The number of documents as the total of the record. -/
def documentTotal : Spec where
  total := true

/-- The record of two documents of which only the number is asked for. -/
def totalOfTwo : Value := .object [("total", .nat 2)]

/-- The number of two documents as the total of their record is told apart from the number that is
reported beside that record. -/
theorem evaluate_twoDocuments_toValue_inj :
    evaluate twoDocuments documentTotal {} = .ok (.overall totalOfTwo none) ∧
    evaluate twoDocuments documentTotal { total := true } = .ok (.overall totalOfTwo (some 2)) ∧
    ((EvalResult.overall totalOfTwo none).toValue =
        (EvalResult.overall totalOfTwo (some 2)).toValue →
      EvalResult.overall totalOfTwo none = .overall totalOfTwo (some 2)) ∧
    ((EvalResult.overall totalOfTwo (some 2)).total.isSome = true →
      ∀ record ∈ (EvalResult.overall totalOfTwo none).records,
        record ≠ (EvalResult.overall totalOfTwo (some 2)).toValue) := by
  have hvalid : documentTotal.validate = .ok () := by cbv
  have hrecord : overallRecord documentTotal twoDocuments = totalOfTwo := by decide +kernel
  have hbare := evaluate_of_groupBy_eq_none hvalid rfl twoDocuments {}
  have hreported := evaluate_of_groupBy_eq_none hvalid rfl twoDocuments { total := true }
  rw [hrecord] at hbare hreported
  exact ⟨hbare, hreported, evaluate_toValue_inj hbare hreported⟩

/-- A record that no evaluation makes has the document of another result. -/
example : (EvalResult.overall (.object [("result", .object []), ("total", .nat 2)]) none).toValue =
    (EvalResult.overall (.object []) (some 2)).toValue := rfl

end Rollup
