import Rollup.Proofs.Report.TableLines

/-!
# What a summary says of the documents

The summary of an evaluation without a grouping is written from the record alone. A record is empty
if there are no documents, but also if the spec asks for nothing, and the summary says the same of
both.
-/

namespace Rollup

/-- A summary says that there are no documents. -/
def SaysNoDocuments (line : List Char) : Prop :=
  "no documents".toList <+: line

/-- The summary of a record over all documents says that there are none exactly if the record has
no members. -/
theorem saysNoDocuments_summaryLine_iff (record : Value) (total : Option Nat) :
    SaysNoDocuments (summaryLine (.overall record total)).toList ↔ record = .object [] := by
  obtain ⟨rest, hline⟩ : ∃ rest, (summaryLine (.overall record total)).toList =
      (if record = .object [] then "no documents" else "global aggregate").toList ++ rest := by
    cases total with
    | none => exact ⟨[], (List.append_nil _).symm⟩
    | some total =>
      simp only [summaryLine, String.toList_append, List.append_assoc]
      exact ⟨_, rfl⟩
  rw [SaysNoDocuments, hline]
  split
  · next hempty => exact iff_of_true (List.prefix_append _ _) hempty
  · next hmembers =>
    refine iff_of_false ?_ hmembers
    rintro ⟨_, heq⟩
    cases congrArg List.head? heq

/-- The record over all documents has no members if there are no documents, or if the spec asks
neither for statistics nor for the total. -/
theorem overallRecord_eq_empty_iff (spec : Spec) (documents : List Document) :
    overallRecord spec documents = .object [] ↔
      documents = [] ∨ spec.stats.keys = [] ∧ spec.total = false := by
  rw [overallRecord_eq_shownMembers, Value.object.injEq]
  simp only [Spec.shownMembers, List.isEmpty_iff, spec.isEmpty_stats_iff]
  by_cases hdocuments : documents = []
  · simp [hdocuments]
  · by_cases hkeys : spec.stats.keys = [] <;> cases htotal : spec.total <;>
      simp [hdocuments, hkeys]

/-- The last line of the table over all documents says that there are none if that is so, and also
if the spec asks neither for statistics nor for the total; otherwise it does not. -/
theorem evaluate_saysNoDocuments_iff {spec : Spec} (hvalid : spec.validate = .ok ())
    (hgroup : spec.groupBy = none) (documents : List Document) (options : EvalOptions) :
    ∃ result line, evaluate documents spec options = .ok result ∧
      result.printedLines.getLast? = some line ∧
      (SaysNoDocuments line ↔
        documents = [] ∨ spec.stats.keys = [] ∧ spec.total = false) := by
  refine ⟨_, _, evaluate_of_groupBy_eq_none hvalid hgroup documents options,
    EvalResult.getLast?_printedLines _, ?_⟩
  rw [saysNoDocuments_summaryLine_iff, overallRecord_eq_empty_iff]

/-- How often there is an age. -/
def ageCount : Spec where
  stats := SortedMap.empty.insert "age" (StatSet.ofList [.count])

/-- The table of one document with an age does not say that there are no documents. -/
theorem evaluate_ageCount_not_saysNoDocuments :
    ageCount.validate = .ok () ∧ ageCount.groupBy = none ∧
      ∃ result line,
        evaluate [⟨[("age", .int 5)]⟩] ageCount { total := true } = .ok result ∧
        result.printedLines.getLast? = some line ∧ ¬ SaysNoDocuments line := by
  have hvalid : ageCount.validate = .ok () := by cbv
  have hkeys : ageCount.stats.keys ≠ [] := by decide +kernel
  obtain ⟨result, line, hrun, hlast, hline⟩ :=
    evaluate_saysNoDocuments_iff hvalid rfl [⟨[("age", .int 5)]⟩] { total := true }
  refine ⟨hvalid, rfl, result, line, hrun, hlast, ?_⟩
  rw [hline]
  rintro (hnone | ⟨hnone, -⟩)
  · cases hnone
  · exact hkeys hnone

/-- A summary may say that there are no documents although there is one: a spec that asks for
nothing has the same record in both cases. -/
theorem evaluate_askingNothing_saysNoDocuments :
    ¬ ∀ (documents : List Document) (spec : Spec) (options : EvalOptions) (result : EvalResult)
        (line : List Char),
      spec.validate = .ok () → spec.groupBy = none →
        evaluate documents spec options = .ok result →
          result.printedLines.getLast? = some line →
            (SaysNoDocuments line ↔ documents = []) := by
  intro h
  have hvalid : ({} : Spec).validate = .ok () := by cbv
  have hrun := evaluate_of_groupBy_eq_none hvalid rfl [⟨[("age", .int 5)]⟩] {}
  have hline := h _ _ _ _ _ hvalid rfl hrun (EvalResult.getLast?_printedLines _)
  rw [saysNoDocuments_summaryLine_iff, overallRecord_eq_empty_iff] at hline
  cases hline.mp (.inr ⟨rfl, rfl⟩)

end Rollup
