import Rollup.Proofs.Spec.InlineSpec

/-!
# Where a clause without a field stands

A spec that is read from a value is refused with the position of the first clause without a field.
Inline clauses are judged one by one, each as if it were the first, so among them the position is
reported as zero wherever the clause stands.
-/

namespace Rollup

open Text
open Spec (WrittenClause)

section Bounds

/-- A bound is read as a scalar. -/
theorem Spec.isScalar_of_readBound {input : String} {value : Value}
    (h : readBound input = some value) : value.isScalar = true := by
  rw [readBound] at h
  split at h
  · cases h
  · split at h
    · split at h
      · next hscalar =>
        cases h
        exact hscalar
      · cases h
        rfl
    · cases h
      rfl

/-- The bounds of all ranges that are written of a clause are scalars. -/
def Spec.WrittenClause.HasScalarBounds (clause : WrittenClause) : Prop :=
  ∀ ranges ∈ clause.ranges, ∀ range ∈ ranges, ∀ bound ∈ range.bounds, bound.isScalar = true

/-- A range is read with scalar bounds. -/
theorem Spec.isScalar_of_readRangeArgument {input : String} {range : Range}
    (h : readRangeArgument input = .ok range) : ∀ bound ∈ range.bounds, bound.isScalar = true := by
  rw [readRangeArgument] at h
  split at h
  · cases h
  · obtain rfl := Except.ok.inj h
    simp only [Range.bounds, List.mem_append, Option.mem_toList]
    rintro bound (hstart | hstop)
    · exact isScalar_of_readBound hstart
    · exact isScalar_of_readBound hstop

/-- A range is refused only because of its form. -/
theorem Spec.malformed_of_readRangeArgument {input : String} {error : SpecError}
    (h : readRangeArgument input = .error error) : ∃ detail, error = .malformed detail := by
  rw [readRangeArgument] at h
  split at h
  · cases h
    exact ⟨_, rfl⟩
  · cases h

/-- A number is read, or it is refused because of its form. -/
theorem Spec.readNumberOption_cases (name value : String) :
    (∃ x, readNumberOption name value = .ok x) ∨
      ∃ detail, readNumberOption name value = .error (.malformed detail) := by
  rw [readNumberOption]
  split
  · exact Or.inl ⟨_, rfl⟩
  · exact Or.inr ⟨_, rfl⟩

/-- What an option can do to a clause: it is refused because of its form, or it says something in
one place, and if that are ranges, their bounds are scalars. -/
theorem Spec.addOption_cases (clause : WrittenClause) (input : String) :
    (∃ detail, addOption clause input = .error (.malformed detail)) ∨
      ∃ written, addOption clause input = .ok written ∧
        (written.ranges = clause.ranges ∨
          ∃ ranges, written.ranges = some ranges ∧
            ∀ range ∈ ranges, ∀ bound ∈ range.bounds, bound.isScalar = true) := by
  rw [addOption]
  split
  · exact Or.inl ⟨_, rfl⟩
  · next name value _ =>
    dsimp only
    split
    · rcases readNumberOption_cases name (trimString value) with ⟨x, hx⟩ | ⟨detail, hdetail⟩
      · rw [hx]
        exact Or.inr ⟨_, rfl, Or.inl rfl⟩
      · rw [hdetail]
        exact Or.inl ⟨_, rfl⟩
    · rcases readNumberOption_cases name (trimString value) with ⟨x, hx⟩ | ⟨detail, hdetail⟩
      · rw [hx]
        exact Or.inr ⟨_, rfl, Or.inl rfl⟩
      · rw [hdetail]
        exact Or.inl ⟨_, rfl⟩
    · exact Or.inr ⟨_, rfl, Or.inl rfl⟩
    · exact Or.inr ⟨_, rfl, Or.inl rfl⟩
    · cases hranges : (pieces ',' (trimString value)).mapM readRangeArgument with
      | error cause =>
        obtain ⟨_, _, _, herror, _⟩ := mapM_eq_error_iff.mp hranges
        obtain ⟨detail, rfl⟩ := malformed_of_readRangeArgument herror
        exact Or.inl ⟨detail, rfl⟩
      | ok ranges =>
        refine Or.inr ⟨_, rfl, Or.inr ⟨ranges, rfl, fun range hrange => ?_⟩⟩
        obtain ⟨_, _, hread⟩ :=
          exists_mem_of_forall₂ (mapM_eq_ok_iff.mp hranges).flip range hrange
        exact isScalar_of_readRangeArgument hread
    · exact Or.inl ⟨_, rfl⟩

/-- An option keeps bounds scalar. -/
theorem Spec.hasScalarBounds_of_addOption {clause written : WrittenClause} {input : String}
    (hclause : clause.HasScalarBounds) (h : addOption clause input = .ok written) :
    written.HasScalarBounds := by
  rcases addOption_cases clause input with ⟨detail, herror⟩ | ⟨other, hother, hranges⟩
  · cases h.symm.trans herror
  · cases h.symm.trans hother
    rcases hranges with hkept | ⟨ranges, hnew, hscalar⟩
    · rwa [WrittenClause.HasScalarBounds, hkept]
    · rw [WrittenClause.HasScalarBounds, hnew]
      rintro _ ⟨⟩
      exact hscalar

/-- The clause that is written has the ranges that are written, if it has ranges. -/
theorem Spec.WrittenClause.ranges?_of_toClause {written : WrittenClause} {clause : Clause}
    (h : written.toClause = .ok clause) :
    clause.field = written.field ∧
      ∀ ranges ∈ clause.bucketing.ranges?, ranges ∈ written.ranges := by
  rw [toClause] at h
  split at h
  · cases h
  · split at h
    · cases h
    · cases h
      refine ⟨rfl, fun ranges hranges => ?_⟩
      dsimp only at hranges
      rw [bucketing] at hranges
      split at hranges
      · next hsome => rwa [hsome]
      all_goals cases hranges

/-- The clause that an argument says has scalar bounds. -/
theorem Spec.hasScalarBounds_of_sayClause {input : String} {clause : Clause}
    (h : sayClause input = .ok clause) : clause.HasScalarBounds := by
  rw [sayClause] at h
  obtain ⟨written, hfold, hclause⟩ := bind_eq_ok_iff.mp h
  have hwritten : written.HasScalarBounds :=
    foldlM_invariant hasScalarBounds_of_addOption (by rintro _ ⟨⟩) hfold
  exact fun ranges hranges =>
    hwritten ranges ((WrittenClause.ranges?_of_toClause hclause).2 ranges hranges)

end Bounds

section Errors

variable {input : String} {index : Nat}

/-- What an argument says is never refused because of its field. -/
theorem Spec.sayClause_ne_emptyGroupField :
    sayClause input ≠ .error (.emptyGroupField index) := by
  intro h
  rw [sayClause] at h
  cases hfold : ((pieces ':' input).drop 1).foldlM addOption
      { field := trimString ((pieces ':' input).headD "") } with
  | error cause =>
    rw [hfold] at h
    cases h
    obtain ⟨before, option, -, hoption⟩ := exists_of_foldlM_eq_error hfold
    rcases addOption_cases before option with ⟨_, herror⟩ | ⟨_, hok, _⟩
    · cases hoption.symm.trans herror
    · cases hoption.symm.trans hok
  | ok written =>
    rw [hfold] at h
    change written.toClause = _ at h
    rw [WrittenClause.toClause] at h
    split at h
    · cases h
    · split at h <;> cases h

/-- Only the path of the field can be wrong about the field of a clause. -/
theorem Clause.fault?_eq_emptyGroupField_iff {clause : Clause} {position : Nat} :
    clause.fault? position = some (.emptyGroupField index) ↔
      clause.field = "" ∧ index = position := by
  rw [Clause.fault?_iff.2]
  constructor
  · intro h
    cases h with
    | field hfield => exact ⟨hfield, rfl⟩
    | bucketing _ hfault =>
      generalize clause.bucketing = bucketing at hfault
      cases hfault with
      | range _ hrange => cases hrange
  · rintro ⟨hfield, rfl⟩
    exact .field hfield

/-- An argument is refused because of its field exactly if it says a clause without one, and then as
the first clause. -/
theorem Spec.readGroupArgument_eq_emptyGroupField_iff :
    readGroupArgument input = .error (.emptyGroupField index) ↔
      index = 0 ∧ ∃ clause, sayClause input = .ok clause ∧ clause.field = "" := by
  rw [readGroupArgument_eq_bind]
  cases hsaid : sayClause input with
  | error cause =>
    constructor
    · intro h
      cases h
      exact absurd hsaid sayClause_ne_emptyGroupField
    · rintro ⟨_, _, ⟨⟩, _⟩
  | ok clause =>
    have hrefused : (do
        let said ← (Except.ok clause : Except SpecError Clause)
        refuse (said.fault? 0)
        return said) = .error (.emptyGroupField index) ↔
          clause.fault? 0 = some (.emptyGroupField index) := by
      rw [← refuse_eq_error_iff]
      change (do refuse (clause.fault? 0); return clause) = _ ↔ _
      cases refuse (clause.fault? 0) <;> simp [bind, Except.bind, pure, Except.pure]
    rw [hrefused, Clause.fault?_eq_emptyGroupField_iff]
    constructor
    · rintro ⟨hfield, hindex⟩
      exact ⟨hindex, clause, rfl, hfield⟩
    · rintro ⟨hindex, said, hclause, hfield⟩
      cases hclause
      exact ⟨hfield, hindex⟩

/-- A statistics argument is never refused because of the field of a clause. -/
theorem Spec.readStatArgument_ne_emptyGroupField :
    readStatArgument input ≠ .error (.emptyGroupField index) := by
  intro h
  rw [readStatArgument] at h
  split at h
  · cases h
  · next field names _ =>
    dsimp only at h
    split at h
    · cases h
    · rw [statsOfNames] at h
      cases hnames : ((pieces ',' names).filter fun name => trimString name ≠ "").mapM
          (statOfName (trimString field)) with
      | error cause =>
        rw [hnames] at h
        cases h
        obtain ⟨_, name, _, hname, _⟩ := mapM_eq_error_iff.mp hnames
        rw [statOfName] at hname
        split at hname <;> cases hname
      | ok stats =>
        rw [hnames] at h
        cases h

end Errors

section Positions

/-- An argument is accepted as a clause. -/
def Spec.Accepted (argument : String) : Prop :=
  ∃ clause, readGroupArgument argument = .ok clause

/-- The first argument that is not accepted stands at a position and says a clause without a
field. -/
def Spec.FirstFieldless (groupBy : List String) (position : Nat) : Prop :=
  ∃ argument, IsFirstWithout Accepted groupBy position argument ∧
    ∃ clause, sayClause argument = .ok clause ∧ clause.field = ""

/-- An argument is accepted exactly if the clause that it says is consistent. -/
theorem Spec.accepted_iff {argument : String} {clause : Clause}
    (h : sayClause argument = .ok clause) : Accepted argument ↔ clause.Consistent := by
  rw [← Clause.fault?_iff.1]
  constructor
  · rintro ⟨other, hother⟩
    obtain ⟨hsaid, hfault⟩ := readGroupArgument_eq_ok_iff.mp hother
    cases h.symm.trans hsaid
    exact hfault
  · intro hfault
    exact ⟨clause, readGroupArgument_eq_ok_iff.mpr ⟨h, hfault⟩⟩

variable {groupBy : List String}

/-- Clauses are refused because of a field exactly if the first argument that is not accepted says a
clause without one, and then as the first clause. -/
theorem Spec.mapM_readGroupArgument_eq_error_iff {index : Nat} :
    groupBy.mapM readGroupArgument = .error (.emptyGroupField index) ↔
      index = 0 ∧ ∃ position, FirstFieldless groupBy position := by
  rw [mapM_eq_error_iff]
  constructor
  · rintro ⟨position, argument, hargument, herror, hbefore⟩
    obtain ⟨hindex, clause, hsaid, hfield⟩ := readGroupArgument_eq_emptyGroupField_iff.mp herror
    exact ⟨hindex, position, argument,
      ⟨hargument, mt (accepted_iff hsaid).mp fun h => h.field hfield, hbefore⟩,
      clause, hsaid, hfield⟩
  · rintro ⟨hindex, position, argument, hfirst, clause, hsaid, hfield⟩
    exact ⟨position, argument, hfirst.getElem?,
      readGroupArgument_eq_emptyGroupField_iff.mpr ⟨hindex, clause, hsaid, hfield⟩, hfirst.before⟩

/-- A spec of arguments is refused because of the field of a clause exactly if its clauses are. -/
theorem Spec.ofArguments_eq_error_iff (stats : List String) (total : Bool) {index : Nat} :
    ofArguments groupBy stats total = .error (.emptyGroupField index) ↔
      groupBy.mapM readGroupArgument = .error (.emptyGroupField index) := by
  cases hgroup : groupBy.mapM readGroupArgument with
  | error cause =>
    rw [ofArguments, hgroup]
    constructor <;> rintro ⟨⟩ <;> rfl
  | ok clauses =>
    -- Neither the statistics nor the spec of accepted clauses can be refused that way.
    have hne : ofArguments groupBy stats total ≠ .error (.emptyGroupField index) := by
      intro h
      cases hstats : stats.mapM readStatArgument with
      | error cause =>
        rw [ofArguments, hgroup, hstats] at h
        cases h
        obtain ⟨_, argument, _, herror, _⟩ := mapM_eq_error_iff.mp hstats
        exact readStatArgument_ne_emptyGroupField herror
      | ok entries => cases h.symm.trans (ofArguments_eq_inline total hgroup hstats)
    exact ⟨fun h => absurd h hne, fun h => by cases h⟩

/-- The clauses that arguments say, written as a list of values, are refused with the position of
the first argument without a field. -/
theorem Spec.ofJsonValue_of_firstFieldless {position : Nat} (h : FirstFieldless groupBy position)
    {clauses : List Clause} (hsaid : groupBy.mapM sayClause = .ok clauses) {items : List Value}
    (hitems : List.Forall₂ Clause.SpelledBy clauses items) :
    ofJsonValue (.object [("groupBy", .array items)]) = .error (.emptyGroupField position) := by
  obtain ⟨argument, hfirst, clause, hclause, hfield⟩ := h
  have hrelated := mapM_eq_ok_iff.mp hsaid
  have hspelled : ({ groupBy := some clauses } : Spec).SpelledBy
      (.object [("groupBy", .array items)]) :=
    .object ⟨by simp, by simp [sectionNames]⟩ (.given (.list hitems)) (.missing rfl) .missing
  have hscalar : ∀ clause ∈ clauses, clause.HasScalarBounds := by
    intro clause hmem
    obtain ⟨_, _, hread⟩ := exists_mem_of_forall₂ hrelated.flip clause hmem
    exact hasScalarBounds_of_sayClause hread
  obtain ⟨other, hother, hfault⟩ :=
    hfirst.of_forall₂ hrelated fun argument clause hsaid => accepted_iff hsaid
  cases hclause.symm.trans hother
  have hvalidate : ({ groupBy := some clauses } : Spec).validate
      = .error (.emptyGroupField position) := by
    refine refuse_eq_error_iff.mpr (Spec.fault?_iff.2 _ |>.mpr ?_)
    exact .clause (by simp [SortedMap.keys, SortedMap.empty]) rfl hfault (.field hfield)
  rw [hspelled.ofJsonValue_eq_validate (by rintro _ ⟨⟩; exact hscalar), hvalidate]
  rfl

/-- Inline clauses are refused because of a field exactly if the first argument that is not accepted
says a clause without one, and the reported position is zero then. So it is that of the argument
only at the start of the list, whereas the same clauses, written as a list of values, are refused
with the position of the argument. -/
theorem Spec.ofArguments_eq_emptyGroupField_iff (groupBy stats : List String) (total : Bool) :
    (∀ index, ofArguments groupBy stats total = .error (.emptyGroupField index) ↔
      index = 0 ∧ ∃ position, FirstFieldless groupBy position) ∧
    ∀ position, FirstFieldless groupBy position →
      (ofArguments groupBy stats total = .error (.emptyGroupField position) ↔ position = 0) ∧
      ∀ clauses items, groupBy.mapM sayClause = .ok clauses →
        List.Forall₂ Clause.SpelledBy clauses items →
        ofJsonValue (.object [("groupBy", .array items)]) = .error (.emptyGroupField position) := by
  have hiff : ∀ index, ofArguments groupBy stats total = .error (.emptyGroupField index) ↔
      index = 0 ∧ ∃ position, FirstFieldless groupBy position := fun _ =>
    (ofArguments_eq_error_iff stats total).trans mapM_readGroupArgument_eq_error_iff
  refine ⟨hiff, fun position h => ⟨?_, fun clauses items hsaid hitems => ?_⟩⟩
  · rw [hiff]
    exact and_iff_left ⟨position, h⟩
  · exact ofJsonValue_of_firstFieldless h hsaid hitems

/-- The third clause is without a field, and the first is reported. -/
theorem Spec.ofArguments_thirdFieldless :
    FirstFieldless ["kind", "age:interval=10", " :interval=10"] 2 ∧
      ofArguments ["kind", "age:interval=10", " :interval=10"] [] false
        = .error (.emptyGroupField 0) ∧
      ofJsonValue (.object [("groupBy", .array [.string "kind",
        .object [("field", .string "age"), ("interval", .int 10)],
        .object [("field", .string ""), ("interval", .int 10)]])])
        = .error (.emptyGroupField 2) := by
  have hfirst : readGroupArgument "kind" = .ok ⟨"kind", .value⟩ := by decide +kernel
  have hsecond : readGroupArgument "age:interval=10"
      = .ok ⟨"age", .interval (Binary64.ofInt 10) .zero⟩ := by decide +kernel
  have hthird : sayClause " :interval=10" = .ok ⟨"", .interval (Binary64.ofInt 10) .zero⟩ := by
    decide +kernel
  have hfieldless : FirstFieldless ["kind", "age:interval=10", " :interval=10"] 2 := by
    refine ⟨_, ⟨rfl, mt (accepted_iff hthird).mp fun h => h.field rfl, ?_⟩, _, hthird, rfl⟩
    rintro (_ | _ | j) hj other hother
    · cases hother
      exact ⟨_, hfirst⟩
    · cases hother
      exact ⟨_, hsecond⟩
    · omega
  have hsaid : ["kind", "age:interval=10", " :interval=10"].mapM sayClause
      = .ok [⟨"kind", .value⟩, ⟨"age", .interval (Binary64.ofInt 10) .zero⟩,
        ⟨"", .interval (Binary64.ofInt 10) .zero⟩] := by decide +kernel
  have hwidth : (Binary64.ofInt 10).SpelledBy (.int 10) := ⟨.integer 10, rfl, rfl⟩
  have hobject : ∀ field : String, Clause.SpelledBy ⟨field, .interval (Binary64.ofInt 10) .zero⟩
      (.object [("field", .string field), ("interval", .int 10)]) := by
    intro field
    exact .object ⟨by simp, by simp [clauseNames]⟩ rfl .missing (.given hwidth) .missing
      Option.getD_none .missing
  have hposition := (ofArguments_eq_emptyGroupField_iff
    ["kind", "age:interval=10", " :interval=10"] [] false).2 2 hfieldless
  refine ⟨hfieldless, ?_, hposition.2 _ _ hsaid (.cons (.field rfl) (.cons (hobject _)
    (.cons (hobject _) .nil)))⟩
  exact ((ofArguments_eq_emptyGroupField_iff _ _ _).1 0).mpr ⟨rfl, 2, hfieldless⟩

/-- The reported position is not that of a clause without a field, and not the one that is reported
for the same clauses in a list of values. -/
theorem Spec.ofArguments_reports_first :
    ofArguments ["kind", ":interval=10"] [] false = .error (.emptyGroupField 0) ∧
      (¬∃ clause, sayClause "kind" = .ok clause ∧ clause.field = "") ∧
      ofJsonValue (.object [("groupBy", .array [.string "kind",
        .object [("field", .string ""), ("interval", .int 10)]])])
        = .error (.emptyGroupField 1) := by
  refine ⟨by decide +kernel, ?_, by decide +kernel⟩
  rintro ⟨clause, hclause, hfield⟩
  have hkind : sayClause "kind" = .ok ⟨"kind", .value⟩ := by decide +kernel
  cases hclause.symm.trans hkind
  exact absurd hfield (by decide)

end Positions

end Rollup
