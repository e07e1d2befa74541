import Rollup.Proofs.Traversal
import Rollup.Proofs.Value.RoundedOrder
import Rollup.Spec.Validity

/-!
# The first fault of a spec

A spec is `Consistent` if it satisfies what is asked of its fields, its ranges and its intervals,
and `HasFirstFault` says which one of its faults comes first, without regard to how faults are
looked for. Validation accepts exactly the consistent specs and reports exactly the first fault of
the others.
-/

namespace Rollup

section Consistency

/-- The bounds that a range has. -/
def Range.bounds (range : Range) : List Value :=
  range.start.toList ++ range.stop.toList

/-- The bounds of a range are scalars, and if there are two, they are of one kind and ascend. -/
structure Range.Consistent (range : Range) : Prop where
  /-- The bounds are scalars. -/
  isScalar : ∀ bound ∈ range.bounds, bound.isScalar = true
  /-- The range starts below its end. -/
  ascends : ∀ start stop, range.start = some start → range.stop = some stop →
    start.SameKind stop ∧ start.compare? stop = some .lt

/-- A floating-point number can be the width of cells: it is finite and above zero. -/
def Binary64.IsWidth (x : Binary64) : Prop :=
  ∃ w : Finite, x = finite w ∧ 0 < (Number.float w).value

/-- What a way of bucketing needs is there and makes sense. -/
inductive Bucketing.Consistent : Bucketing → Prop where
  /-- The value itself is always a key. -/
  | value : Consistent .value
  /-- Any text may name a component of a time. -/
  | timeComponent (component : String) : Consistent (.timeComponent component)
  /-- There is a range, and all of them are consistent. -/
  | ranges {ranges : List Range} (hne : ranges ≠ []) (h : ∀ range ∈ ranges, range.Consistent) :
      Consistent (.ranges ranges)
  /-- The interval has a width and starts at a finite number. -/
  | interval {width base : Binary64} (hwidth : width.IsWidth) (hbase : base.isFinite = true) :
      Consistent (.interval width base)

/-- A clause names a field, and its way of bucketing is consistent. -/
structure Clause.Consistent (clause : Clause) : Prop where
  /-- The path of the field is not empty. -/
  field : clause.field ≠ ""
  /-- The way of bucketing is consistent. -/
  bucketing : clause.bucketing.Consistent

/-- A spec names the fields of its statistics, and its grouping has clauses, all of them
consistent. -/
structure Spec.Consistent (spec : Spec) : Prop where
  /-- No statistics are requested for the empty path. -/
  stats : "" ∉ spec.stats.keys
  /-- A grouping has clauses. -/
  groupBy : spec.groupBy ≠ some []
  /-- The clauses are consistent. -/
  clauses : ∀ clauses, spec.groupBy = some clauses → ∀ clause ∈ clauses, clause.Consistent

end Consistency

section Faults

/-- What is wrong with the range at a position of the clause on a field: that a bound is no scalar
comes before that the bounds are of different kinds, and that before their order. -/
inductive Range.HasFault (field : String) (index : Nat) (range : Range) : SpecError → Prop where
  /-- A bound is null or a container. -/
  | nonScalar {bound : Value} (hbound : bound ∈ range.bounds) (h : bound.isScalar = false) :
      HasFault field index range (.nonScalarBound field index)
  /-- Two scalars are of different kinds. -/
  | differentKinds {start stop : Value} (hscalar : ∀ bound ∈ range.bounds, bound.isScalar = true)
      (hstart : range.start = some start) (hstop : range.stop = some stop)
      (h : ¬start.SameKind stop) : HasFault field index range (.incomparableBounds field index)
  /-- Two scalars of one kind do not ascend. -/
  | inverted {start stop : Value} (hscalar : ∀ bound ∈ range.bounds, bound.isScalar = true)
      (hstart : range.start = some start) (hstop : range.stop = some stop)
      (hkind : start.SameKind stop) (h : start.compare? stop ≠ some .lt) :
      HasFault field index range (.invertedRange field index)

/-- What is first wrong with the way of bucketing of the clause on a field. -/
inductive Bucketing.HasFault (field : String) : Bucketing → SpecError → Prop where
  /-- There are no ranges. -/
  | noRanges : HasFault field (.ranges []) (.emptyRanges field)
  /-- Something is wrong with the first range that is not consistent. -/
  | range {ranges : List Range} {index : Nat} {range : Range} {error : SpecError}
      (hfirst : IsFirstWithout Range.Consistent ranges index range)
      (h : range.HasFault field index error) : HasFault field (.ranges ranges) error
  /-- The width is not finite or not above zero. -/
  | width {width base : Binary64} (h : ¬width.IsWidth) :
      HasFault field (.interval width base) (.invalidInterval field width)
  /-- The base is not finite. -/
  | base {width base : Binary64} (hwidth : width.IsWidth) (h : base.isFinite = false) :
      HasFault field (.interval width base) (.invalidBase field base)

/-- What is first wrong with the clause at a position of a grouping. -/
inductive Clause.HasFault (index : Nat) (clause : Clause) : SpecError → Prop where
  /-- The path of the field is empty. -/
  | field (h : clause.field = "") : HasFault index clause (.emptyGroupField index)
  /-- Something is wrong with the way of bucketing. -/
  | bucketing {error : SpecError} (hfield : clause.field ≠ "")
      (h : clause.bucketing.HasFault clause.field error) : HasFault index clause error

/-- What is first wrong with a spec. -/
inductive Spec.HasFirstFault (spec : Spec) : SpecError → Prop where
  /-- Statistics are requested for the empty path. -/
  | statField (h : "" ∈ spec.stats.keys) : HasFirstFault spec .emptyStatField
  /-- The grouping has no clauses. -/
  | noClauses (hstats : "" ∉ spec.stats.keys) (h : spec.groupBy = some []) :
      HasFirstFault spec .emptyGroupBy
  /-- Something is wrong with the first clause that is not consistent. -/
  | clause {clauses : List Clause} {index : Nat} {clause : Clause} {error : SpecError}
      (hstats : "" ∉ spec.stats.keys) (hgroup : spec.groupBy = some clauses)
      (hfirst : IsFirstWithout Clause.Consistent clauses index clause)
      (h : clause.HasFault index error) : HasFirstFault spec error

end Faults

section Search

variable {α ε : Type} {p : α → Prop} {fault : Nat → α → Option ε}
  (hfault : ∀ index item, fault index item = none ↔ p item)
include hfault

/-- No fault is found in a list exactly if every item has the property of those without a fault. -/
theorem findSome?_zipIdx_eq_none_iff {items : List α} :
    (items.zipIdx.findSome? fun (item, index) => fault index item) = none ↔
      ∀ item ∈ items, p item := by
  rw [List.findSome?_eq_none_iff]
  constructor
  · intro hnone item hitem
    obtain ⟨index, hindex⟩ := List.mem_iff_getElem?.mp hitem
    exact (hfault index item).mp (hnone (item, index) (List.mem_zipIdx_iff_getElem?.mpr hindex))
  · rintro hall ⟨item, index⟩ hmem
    have hitem := List.mem_of_getElem? (List.mem_zipIdx_iff_getElem?.mp hmem)
    exact (hfault index item).mpr (hall item hitem)

/-- The fault that is found in a list is that of the first item without the property. -/
theorem findSome?_zipIdx_eq_some_iff {items : List α} {start : Nat} {error : ε} :
    ((items.zipIdx start).findSome? fun (item, index) => fault index item) = some error ↔
      ∃ index item, IsFirstWithout p items index item ∧
        fault (start + index) item = some error := by
  induction items generalizing start with
  | nil =>
    rw [List.zipIdx_nil, List.findSome?_nil]
    simp [isFirstWithout_iff]
  | cons first rest ih =>
    rw [List.zipIdx_cons, List.findSome?_cons]
    dsimp only
    cases hfirst : fault start first with
    | none =>
      rw [ih, exists_isFirstWithout_cons_of_pos ((hfault start first).mp hfirst)]
      simp only [Nat.add_assoc, Nat.add_comm 1]
    | some found =>
      have hwithout : ¬p first := by
        rw [← hfault start first, hfirst]
        simp
      rw [exists_isFirstWithout_cons_of_neg hwithout]
      exact iff_of_eq (congrArg (· = some error) hfirst.symm)

end Search

/-- What finds nothing wrong with the sound and reports every fault, each being sound or having a
fault, finds exactly the faults. -/
theorem finds_iff {ε : Type} {found : Option ε} {sound : Prop} {fault : ε → Prop}
    (hsound : sound → found = none) (hfault : ∀ error, fault error → found = some error)
    (hcover : sound ∨ ∃ error, fault error) :
    (found = none ↔ sound) ∧ ∀ error, found = some error ↔ fault error := by
  rcases hcover with h | ⟨cause, h⟩
  · have hnone := hsound h
    refine ⟨iff_of_true hnone h, fun error => ⟨fun hsome => ?_, hfault error⟩⟩
    rw [hnone] at hsome
    cases hsome
  · have hsome := hfault cause h
    refine ⟨⟨fun hnone => ?_, hsound⟩, fun error => ⟨fun herror => ?_, hfault error⟩⟩
    · rw [hsome] at hnone
      cases hnone
    · rw [hsome, Option.some.injEq] at herror
      exact herror ▸ h

section Ranges

/-- Values compare exactly if they are of one kind. -/
theorem Value.compare?_eq_none_iff {a b : Value} : a.compare? b = none ↔ ¬a.SameKind b := by
  rw [← not_iff_not, not_not, ← Ne, Option.ne_none_iff_exists']
  refine ⟨?_, SameKind.exists_compare?⟩
  rintro ⟨_, h⟩
  exact sameKind_of_compare? h

variable {range : Range} {field : String} {index : Nat}

/-- A bound that is not a scalar is found before anything else. -/
theorem Range.fault?_of_nonScalar {bound : Value} (hbound : bound ∈ range.bounds)
    (h : bound.isScalar = false) :
    range.fault? field index = some (.nonScalarBound field index) := by
  have hany : (range.start.toList ++ range.stop.toList).any (fun bound => !bound.isScalar) = true :=
    List.any_eq_true.mpr ⟨bound, hbound, by rw [h]; rfl⟩
  rw [fault?, if_pos hany]

/-- Nothing else is looked for in the bounds of a range than that they are scalars, unless there are
two. -/
theorem Range.fault?_of_isScalar (hscalar : ∀ bound ∈ range.bounds, bound.isScalar = true) :
    range.fault? field index =
      range.start.bind fun start => range.stop.bind fun stop =>
        if start.compare? stop = none then some (.incomparableBounds field index)
        else if start.compare? stop = some .lt then none
        else some (.invertedRange field index) := by
  have hany :
      ¬(range.start.toList ++ range.stop.toList).any (fun bound => !bound.isScalar) = true := by
    simpa [bounds, or_imp, forall_and] using hscalar
  rw [fault?, if_neg hany]
  cases range.start with
  | none => rfl
  | some start =>
    cases range.stop with
    | none => rfl
    | some stop =>
      cases hcompare : start.compare? stop with
      | none => simp [hcompare]
      | some outcome => cases outcome <;> simp [hcompare]

/-- Nothing is found wrong with a range exactly if it is consistent, and what is found is wrong with
it. -/
theorem Range.fault?_iff :
    (range.fault? field index = none ↔ range.Consistent) ∧
      ∀ error, range.fault? field index = some error ↔ range.HasFault field index error := by
  refine finds_iff ?_ ?_ ?_
  · rintro ⟨hscalar, hascends⟩
    rw [fault?_of_isScalar hscalar]
    simp only [Option.bind_eq_none_iff]
    intro start hstart stop hstop
    obtain ⟨-, hless⟩ := hascends start stop hstart hstop
    simp [hless]
  · intro error h
    cases h with
    | nonScalar hbound h => exact fault?_of_nonScalar hbound h
    | differentKinds hscalar hstart hstop h =>
      rw [fault?_of_isScalar hscalar, hstart, hstop]
      exact if_pos (Value.compare?_eq_none_iff.mpr h)
    | inverted hscalar hstart hstop hkind h =>
      rw [fault?_of_isScalar hscalar, hstart, hstop]
      exact (if_neg (mt Value.compare?_eq_none_iff.mp (not_not.mpr hkind))).trans (if_neg h)
  · by_cases hscalar : ∀ bound ∈ range.bounds, bound.isScalar = true
    · by_cases hascends : ∀ start stop, range.start = some start → range.stop = some stop →
        start.SameKind stop ∧ start.compare? stop = some .lt
      · exact Or.inl ⟨hscalar, hascends⟩
      · push Not at hascends
        obtain ⟨start, stop, hstart, hstop, hnot⟩ := hascends
        by_cases hkind : start.SameKind stop
        · exact Or.inr ⟨_, .inverted hscalar hstart hstop hkind (hnot hkind)⟩
        · exact Or.inr ⟨_, .differentKinds hscalar hstart hstop hkind⟩
    · push Not at hscalar
      obtain ⟨bound, hbound, h⟩ := hscalar
      exact Or.inr ⟨_, .nonScalar hbound (Bool.eq_false_iff.mpr h)⟩

end Ranges

section Clauses

/-- A float is above zero exactly if it has a positive number of units. -/
theorem Binary64.Finite.value_pos_iff (w : Finite) :
    0 < (Number.float w).value ↔ 0 < w.toUnits := by
  have hzero : (Number.integer 0).value = 0 := rfl
  rw [← hzero, ← not_le, Number.value_le_iff, Number.toUnits, Number.toUnits, Int.zero_mul, not_le]

/-- A number can be the width of cells exactly if it is positive. -/
theorem Binary64.isPositive_iff (x : Binary64) : x.isPositive = true ↔ x.IsWidth := by
  cases x with
  | finite w =>
    rw [isPositive, decide_eq_true_eq, ← w.value_pos_iff]
    constructor
    · intro h
      exact ⟨w, rfl, h⟩
    · rintro ⟨_, ⟨⟩, h⟩
      exact h
  | _ => simp [isPositive, IsWidth]

/-- Ranges are consistent exactly if there are some and all of them are. -/
theorem Bucketing.consistent_ranges_iff {ranges : List Range} :
    (Bucketing.ranges ranges).Consistent ↔ ranges ≠ [] ∧ ∀ range ∈ ranges, range.Consistent := by
  constructor
  · intro h
    cases h with
    | ranges hne h => exact ⟨hne, h⟩
  · rintro ⟨hne, h⟩
    exact .ranges hne h

/-- An interval is consistent exactly if it has a width and a finite base. -/
theorem Bucketing.consistent_interval_iff {width base : Binary64} :
    (Bucketing.interval width base).Consistent ↔ width.IsWidth ∧ base.isFinite = true := by
  constructor
  · intro h
    cases h with
    | interval hwidth hbase => exact ⟨hwidth, hbase⟩
  · rintro ⟨hwidth, hbase⟩
    exact .interval hwidth hbase

variable {field : String}

/-- Nothing is found wrong with ranges exactly if there are some and they are consistent, and what
is found is wrong with the first of them that is not. -/
theorem rangesFault?_iff {ranges : List Range} :
    (rangesFault? field ranges = none ↔ (Bucketing.ranges ranges).Consistent) ∧
      ∀ error, rangesFault? field ranges = some error ↔
        (Bucketing.ranges ranges).HasFault field error := by
  cases ranges with
  | nil =>
    refine finds_iff ?_ ?_ (Or.inr ⟨_, .noRanges⟩)
    · intro h
      exact absurd rfl (Bucketing.consistent_ranges_iff.mp h).1
    · intro error h
      cases h with
      | noRanges => rfl
      | range hfirst _ => cases hfirst.getElem?
  | cons first rest =>
    have hnone : ∀ index (range : Range), range.fault? field index = none ↔ range.Consistent :=
      fun _ _ => Range.fault?_iff.1
    have hne : first :: rest ≠ [] := List.cons_ne_nil first rest
    rw [rangesFault?, List.isEmpty_cons, if_neg Bool.false_ne_true]
    constructor
    · rw [findSome?_zipIdx_eq_none_iff hnone, Bucketing.consistent_ranges_iff]
      exact (and_iff_right hne).symm
    · intro error
      rw [findSome?_zipIdx_eq_some_iff hnone]
      simp only [Nat.zero_add, Range.fault?_iff.2]
      constructor
      · rintro ⟨index, range, hfirst, herror⟩
        exact .range hfirst herror
      · rintro (_ | ⟨hfirst, herror⟩)
        exact ⟨_, _, hfirst, herror⟩

/-- Nothing is found wrong with an interval exactly if it has a width and a finite base, and of the
two the width is judged first. -/
theorem intervalFault?_iff {width base : Binary64} :
    (intervalFault? field width base = none ↔ (Bucketing.interval width base).Consistent) ∧
      ∀ error, intervalFault? field width base = some error ↔
        (Bucketing.interval width base).HasFault field error := by
  refine finds_iff ?_ ?_ ?_
  · intro h
    obtain ⟨hwidth, hbase⟩ := Bucketing.consistent_interval_iff.mp h
    simp [intervalFault?, (Binary64.isPositive_iff width).mpr hwidth, hbase]
  · intro error h
    cases h with
    | width h =>
      have hpositive := Bool.eq_false_iff.mpr (mt (Binary64.isPositive_iff width).mp h)
      simp [intervalFault?, hpositive]
    | base hwidth h => simp [intervalFault?, (Binary64.isPositive_iff width).mpr hwidth, h]
  · by_cases hwidth : width.IsWidth
    · cases hbase : base.isFinite with
      | true => exact Or.inl (.interval hwidth hbase)
      | false => exact Or.inr ⟨_, .base hwidth hbase⟩
    · exact Or.inr ⟨_, .width hwidth⟩

/-- A clause with a field is consistent exactly if its way of bucketing is. -/
theorem Clause.consistent_iff {clause : Clause} (hfield : clause.field ≠ "") :
    clause.Consistent ↔ clause.bucketing.Consistent :=
  ⟨Consistent.bucketing, Consistent.mk hfield⟩

/-- What is wrong with a clause with a field is wrong with its way of bucketing. -/
theorem Clause.hasFault_iff {clause : Clause} {index : Nat} {error : SpecError}
    (hfield : clause.field ≠ "") :
    clause.HasFault index error ↔ clause.bucketing.HasFault clause.field error := by
  constructor
  · intro h
    cases h with
    | field h => exact absurd h hfield
    | bucketing _ h => exact h
  · exact .bucketing hfield

/-- Nothing is found wrong with a clause exactly if it is consistent, wherever it stands, and what
is found is the first thing wrong with it. -/
theorem Clause.fault?_iff {clause : Clause} {index : Nat} :
    (clause.fault? index = none ↔ clause.Consistent) ∧
      ∀ error, clause.fault? index = some error ↔ clause.HasFault index error := by
  by_cases hfield : clause.field = ""
  · refine finds_iff (fun h => absurd hfield h.field) ?_ (Or.inr ⟨_, .field hfield⟩)
    intro error h
    cases h with
    | field _ => exact if_pos hfield
    | bucketing hne _ => exact absurd hfield hne
  · simp only [consistent_iff hfield, hasFault_iff hfield]
    rw [fault?, if_neg hfield]
    cases clause.bucketing with
    | value =>
      refine finds_iff (fun _ => rfl) (fun error h => ?_) (Or.inl .value)
      cases h
    | timeComponent component =>
      refine finds_iff (fun _ => rfl) (fun error h => ?_) (Or.inl (.timeComponent component))
      cases h
    | ranges ranges => exact rangesFault?_iff
    | interval width base => exact intervalFault?_iff

end Clauses

section Specs

/-- What is found is what is refused. -/
theorem refuse_eq_error_iff {fault : Option SpecError} {error : SpecError} :
    refuse fault = .error error ↔ fault = some error := by
  cases fault <;> simp [refuse]

section

variable {spec : Spec} (hstats : "" ∉ spec.stats.keys)
include hstats

/-- Nothing more is asked of a spec without a grouping that names the fields of its statistics. -/
theorem Spec.consistent_of_ungrouped (hgroup : spec.groupBy = none) : spec.Consistent :=
  ⟨hstats, by simp [hgroup], by simp [hgroup]⟩

variable {clauses : List Clause} (hgroup : spec.groupBy = some clauses)
include hgroup

/-- Of a spec with a grouping it is asked that there are clauses and that they are consistent. -/
theorem Spec.consistent_iff :
    spec.Consistent ↔ clauses ≠ [] ∧ ∀ clause ∈ clauses, clause.Consistent := by
  constructor
  · intro h
    refine ⟨?_, h.clauses clauses hgroup⟩
    rintro rfl
    exact h.groupBy hgroup
  · rintro ⟨hne, hclauses⟩
    refine ⟨hstats, ?_, ?_⟩
    · rw [hgroup, Ne, Option.some.injEq]
      exact hne
    · intro others hothers
      rw [hgroup, Option.some.injEq] at hothers
      exact hothers ▸ hclauses

/-- What is first wrong with a spec with clauses is wrong with the first clause that is not
consistent. -/
theorem Spec.hasFirstFault_iff (hne : clauses ≠ []) {error : SpecError} :
    spec.HasFirstFault error ↔ ∃ index clause,
      IsFirstWithout Clause.Consistent clauses index clause ∧ clause.HasFault index error := by
  constructor
  · intro h
    cases h with
    | statField h => exact absurd h hstats
    | noClauses _ h => exact absurd (Option.some.inj (hgroup.symm.trans h)) hne
    | clause _ hsome hfirst h =>
      obtain rfl := Option.some.inj (hgroup.symm.trans hsome)
      exact ⟨_, _, hfirst, h⟩
  · rintro ⟨index, clause, hfirst, h⟩
    exact .clause hstats hgroup hfirst h

end

/-- Nothing is found wrong with a spec exactly if it is consistent, and what is found is the first
thing wrong with it. -/
theorem Spec.fault?_iff {spec : Spec} :
    (spec.fault? = none ↔ spec.Consistent) ∧
      ∀ error, spec.fault? = some error ↔ spec.HasFirstFault error := by
  by_cases hstats : "" ∈ spec.stats.keys
  · have hfound : spec.fault? = some .emptyStatField := if_pos (List.contains_iff_mem.mpr hstats)
    refine finds_iff (fun h => absurd hstats h.stats) ?_ (Or.inr ⟨_, .statField hstats⟩)
    intro error h
    cases h with
    | statField _ => exact hfound
    | noClauses hnot _ => exact absurd hstats hnot
    | clause hnot _ _ _ => exact absurd hstats hnot
  · rw [fault?, if_neg (mt List.contains_iff_mem.mp hstats)]
    cases hgroup : spec.groupBy with
    | none =>
      refine finds_iff (fun _ => rfl) ?_ (Or.inl (consistent_of_ungrouped hstats hgroup))
      intro error h
      cases h with
      | statField h => exact absurd h hstats
      | noClauses _ h => cases hgroup.symm.trans h
      | clause _ h _ _ => cases hgroup.symm.trans h
    | some clauses =>
      cases clauses with
      | nil =>
        refine finds_iff (fun h => absurd hgroup h.groupBy) ?_
          (Or.inr ⟨_, .noClauses hstats hgroup⟩)
        intro error h
        cases h with
        | statField h => exact absurd h hstats
        | noClauses _ _ => rfl
        | clause _ hsome hfirst _ =>
          cases hgroup.symm.trans hsome
          cases hfirst.getElem?
      | cons first rest =>
        have hnone : ∀ index (clause : Clause), clause.fault? index = none ↔ clause.Consistent :=
          fun _ _ => Clause.fault?_iff.1
        have hne : first :: rest ≠ [] := List.cons_ne_nil first rest
        rw [Option.bind_some, List.isEmpty_cons, if_neg Bool.false_ne_true,
          consistent_iff hstats hgroup, findSome?_zipIdx_eq_none_iff hnone]
        refine ⟨(and_iff_right hne).symm, fun error => ?_⟩
        rw [hasFirstFault_iff hstats hgroup hne, findSome?_zipIdx_eq_some_iff hnone]
        simp only [Nat.zero_add, Clause.fault?_iff.2]

end Specs

/-- A spec is valid exactly if it is consistent. Otherwise its first fault is reported: statistics
for the empty path, then a grouping without clauses, then what is wrong with the first clause that
is not consistent. -/
theorem Spec.validate_iff_consistent (spec : Spec) :
    (spec.validate = .ok () ↔ spec.Consistent) ∧
      ∀ error, spec.validate = .error error ↔ spec.HasFirstFault error := by
  refine ⟨spec.validate_eq_ok_iff.trans fault?_iff.1, fun error => ?_⟩
  exact refuse_eq_error_iff.trans (fault?_iff.2 error)

end Rollup
