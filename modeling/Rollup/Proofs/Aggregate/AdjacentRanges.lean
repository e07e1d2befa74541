import Rollup.Proofs.Aggregate.ClauseKey
import Rollup.Proofs.Spec.FirstFault

/-!
# Adjacent ranges

The half-open ranges between neighbouring bounds, with an open one below the first bound and another
one above the last, partition the values of their kind, however numbers are spelled. The bounds of a
valid clause ascend, and to be less is transitive; so a value is below all bounds from some position
on and at or above those before it, and the one range that it lies in is the one at that position.
-/

namespace Rollup

/-- The ranges that are left above a bound, each ending where the next one starts. -/
def rangesFrom (start : Option Value) : List Value → List Range
  | [] => [{ start }]
  | bound :: bounds => { start, stop := some bound } :: rangesFrom (some bound) bounds

/-- The ranges that several bounds cut all values into. -/
def adjacentRanges (bounds : List Value) : List Range :=
  rangesFrom none bounds

/-- How many bounds a value is not below. -/
def boundsReached (value : Value) (bounds : List Value) : Nat :=
  bounds.countP fun bound => value.compare? bound ≠ some .lt

/-- Every bound is less than those behind it. -/
def Ascending (bounds : List Value) : Prop :=
  bounds.Pairwise fun a b => a.compare? b = some .lt

section Validity

variable {field : String}

/-- The bounds of consistent adjacent ranges ascend from each to the next. -/
theorem isChain_of_consistent {start : Option Value} {bounds : List Value}
    (h : ∀ range ∈ rangesFrom start bounds, range.Consistent) :
    (start.toList ++ bounds).IsChain fun a b => a.compare? b = some .lt := by
  induction bounds generalizing start with
  | nil => cases start <;> simp
  | cons bound bounds ih =>
    rw [rangesFrom, List.forall_mem_cons] at h
    obtain ⟨hfirst, hrest⟩ := h
    have hchain := ih hrest
    cases start with
    | none => exact hchain
    | some start =>
      exact List.isChain_cons_cons.mpr ⟨(hfirst.ascends start bound rfl rfl).2, hchain⟩

/-- The bounds of a valid clause of adjacent ranges ascend. -/
theorem ascending_of_fault?_eq_none {bounds : List Value} {index : Nat}
    (h : (Clause.mk field (.ranges (adjacentRanges bounds))).fault? index = none) :
    Ascending bounds := by
  have hconsistent := Bucketing.consistent_ranges_iff.mp (Clause.fault?_iff.1.mp h).bucketing
  have hchain : bounds.IsChain fun a b => a.compare? b = some .lt :=
    isChain_of_consistent hconsistent.2
  have htrans : Trans (fun a b : Value => a.compare? b = some .lt)
      (fun a b => a.compare? b = some .lt) (fun a b => a.compare? b = some .lt) :=
    ⟨Value.compare?_lt_trans⟩
  exact List.isChain_iff_pairwise.mp hchain

end Validity

namespace Value

/-- A scalar is not null. -/
theorem ne_null_of_isScalar {a : Value} (h : a.isScalar = true) : a ≠ null := by
  rintro rfl
  cases h

/-- A scalar is not an array. -/
theorem isArray_of_isScalar {a : Value} (h : a.isScalar = true) : a.isArray = false := by
  cases a with
  | array items => cases h
  | _ => rfl

/-- Of two values of one kind the first is at or above the second, or below it. -/
theorem SameKind.isAtLeast_iff {value bound : Value} (h : value.SameKind bound) :
    Range.isAtLeast value bound = true ↔ value.compare? bound ≠ some .lt := by
  obtain ⟨outcome, houtcome⟩ := h.exists_compare?
  cases outcome <;> simp [Range.isAtLeast, houtcome]

/-- A value of the kind of one of several ascending bounds is of the kind of all of them. -/
theorem SameKind.of_ascending {bounds : List Value} (hascending : Ascending bounds)
    {value : Value} (h : ∃ bound ∈ bounds, value.SameKind bound) :
    ∀ bound ∈ bounds, value.SameKind bound := by
  obtain ⟨reference, hreference, hkind⟩ := h
  intro bound hbound
  by_cases heq : reference = bound
  · exact heq ▸ hkind
  · have hsymm : Std.Symm SameKind := ⟨fun _ _ => SameKind.symm⟩
    have hkinds : bounds.Pairwise SameKind := hascending.imp sameKind_of_compare?
    exact hkind.trans (hkinds.forall hreference hbound heq)

end Value

section Partition

variable {value : Value}

/-- No range starting at one of several bounds holds a value that is at or above none of them. -/
theorem contains_rangesFrom_eq_false {bound : Value} {bounds : List Value}
    (h : ∀ other ∈ bound :: bounds, Range.isAtLeast value other = false) :
    ∀ range ∈ rangesFrom (some bound) bounds, range.contains value = false := by
  induction bounds generalizing bound with
  | nil =>
    rw [List.forall_mem_singleton] at h
    simp [rangesFrom, Range.contains, h]
  | cons next bounds ih =>
    rw [List.forall_mem_cons] at h
    rw [rangesFrom, List.forall_mem_cons]
    refine ⟨?_, ih h.2⟩
    simp [Range.contains, h.1]

/-- Of the ranges above a bound that a value is at or above, the one behind as many bounds as the
value is not below holds the value, and no other one does. -/
theorem contains_rangesFrom_iff {bounds : List Value} (hascending : Ascending bounds)
    (hkind : ∀ bound ∈ bounds, value.SameKind bound) {start : Option Value}
    (hstart : start.all (Range.isAtLeast value) = true) (position : Nat) :
    (∃ range, (rangesFrom start bounds)[position]? = some range ∧ range.contains value = true) ↔
      position = boundsReached value bounds := by
  induction bounds generalizing start position with
  | nil =>
    cases position with
    | zero => simp [rangesFrom, boundsReached, Range.contains, hstart]
    | succ position => simp [rangesFrom, boundsReached]
  | cons bound bounds ih =>
    obtain ⟨hbound, hrest⟩ := List.pairwise_cons.mp hascending
    rw [List.forall_mem_cons] at hkind
    have hatLeast := hkind.1.isAtLeast_iff
    rw [rangesFrom]
    by_cases hbelow : value.compare? bound = some .lt
    · -- The value is below all bounds from this one on.
      have hbehind : ∀ other ∈ bound :: bounds, value.compare? other = some .lt := by
        rw [List.forall_mem_cons]
        exact ⟨hbelow, fun other hother => Value.compare?_lt_trans hbelow (hbound other hother)⟩
      have hreached : boundsReached value (bound :: bounds) = 0 := by
        rw [boundsReached, List.countP_eq_zero]
        intro other hother
        simp [hbehind other hother]
      have hnone : ∀ range ∈ rangesFrom (some bound) bounds, range.contains value = false := by
        apply contains_rangesFrom_eq_false
        intro other hother
        simp [Range.isAtLeast, hbehind other hother]
      rw [hreached]
      cases position with
      | zero => simp [Range.contains, hstart, Range.isBelow, hbelow]
      | succ position =>
        simp only [List.getElem?_cons_succ, Nat.succ_ne_zero, iff_false, not_exists, not_and]
        intro range hrange
        rw [hnone range (List.mem_of_getElem? hrange)]
        exact Bool.false_ne_true
    · have hreached : boundsReached value (bound :: bounds) = boundsReached value bounds + 1 := by
        rw [boundsReached, List.countP_cons_of_pos (by simpa using hbelow)]
        rfl
      rw [hreached]
      cases position with
      | zero => simp [Range.contains, Range.isBelow, hbelow]
      | succ position =>
        have hstart : (some bound).all (Range.isAtLeast value) = true := hatLeast.mpr hbelow
        rw [List.getElem?_cons_succ, Nat.succ_inj]
        exact ih hrest hkind.2 hstart position

/-- A value of another kind than the bounds lies in none of their ranges. -/
theorem contains_adjacentRanges_eq_false {bounds : List Value} (hbounds : bounds ≠ [])
    (h : ¬∃ bound ∈ bounds, value.SameKind bound) :
    ∀ range ∈ adjacentRanges bounds, range.contains value = false := by
  have hcompare : ∀ bound ∈ bounds, value.compare? bound = none := by
    intro bound hbound
    rw [Option.eq_none_iff_forall_ne_some]
    intro outcome houtcome
    exact h ⟨bound, hbound, Value.sameKind_of_compare? houtcome⟩
  cases bounds with
  | nil => exact absurd rfl hbounds
  | cons bound bounds =>
    rw [adjacentRanges, rangesFrom, List.forall_mem_cons]
    constructor
    · simp [Range.contains, Range.isBelow, hcompare bound List.mem_cons_self]
    · apply contains_rangesFrom_eq_false
      intro other hother
      simp [Range.isAtLeast, hcompare other hother]

/-- The key of a value is the position of the only range that it lies in. -/
theorem rangeKey_eq_nat {ranges : List Range} {position : Nat}
    (h : ∀ index, (∃ range, ranges[index]? = some range ∧ range.contains value = true) ↔
      index = position) :
    rangeKey ranges value = .nat position := by
  obtain ⟨range, hrange, hcontains⟩ := (h position).mpr rfl
  obtain ⟨hlength, hget⟩ := List.getElem?_eq_some_iff.mp hrange
  have hfind : (ranges.findIdx? fun range => range.contains value) = some position := by
    rw [List.findIdx?_eq_some_iff_getElem]
    refine ⟨hlength, by rw [hget]; exact hcontains, ?_⟩
    intro index hindex hother
    have hsame := (h index).mp ⟨_, List.getElem?_eq_getElem (Nat.lt_trans hindex hlength), hother⟩
    omega
  rw [rangeKey, hfind]

/-- The key of a value in none of the ranges is null. -/
theorem rangeKey_eq_null {ranges : List Range}
    (h : ∀ range ∈ ranges, range.contains value = false) : rangeKey ranges value = .null := by
  have hfind : (ranges.findIdx? fun range => range.contains value) = none :=
    List.findIdx?_eq_none_iff.mpr h
  rw [rangeKey, hfind]

end Partition

/-- The adjacent ranges of a valid clause partition the values of the kind of their bounds. Such a
value lies in exactly one of the ranges, the one behind as many bounds as the value is not below,
and the position of this range is its key. A value of another kind lies in none of the ranges and
has the key null, unless it is an array. -/
theorem groupKey_adjacentRanges {field : String} {bounds : List Value} (hbounds : bounds ≠ [])
    {index : Nat}
    (hvalid : (Clause.mk field (.ranges (adjacentRanges bounds))).fault? index = none)
    {data value : Value} (hvalue : data.resolve? field = some value) :
    ((∃ bound ∈ bounds, value.SameKind bound) →
      (∀ position, (∃ range, (adjacentRanges bounds)[position]? = some range ∧
          range.contains value = true) ↔ position = boundsReached value bounds) ∧
      groupKey data [⟨field, .ranges (adjacentRanges bounds)⟩] =
        .ok [.nat (boundsReached value bounds)]) ∧
    ((¬∃ bound ∈ bounds, value.SameKind bound) → value.isArray = false →
      (∀ range ∈ adjacentRanges bounds, range.contains value = false) ∧
      groupKey data [⟨field, .ranges (adjacentRanges bounds)⟩] = .ok [.null]) := by
  have hascending := ascending_of_fault?_eq_none hvalid
  constructor
  · intro hkind
    have hall := Value.SameKind.of_ascending hascending hkind
    obtain ⟨bound, -, hsame⟩ := hkind
    have hscalar := hsame.isScalar
    have hpartition : ∀ position, (∃ range, (adjacentRanges bounds)[position]? = some range ∧
        range.contains value = true) ↔ position = boundsReached value bounds :=
      contains_rangesFrom_iff hascending hall Option.all_none
    refine ⟨hpartition, (groupKey_singleton_iff _).mpr ?_⟩
    rw [Clause.key_of_value ⟨field, .ranges (adjacentRanges bounds)⟩ hvalue
        (Value.ne_null_of_isScalar hscalar),
      Clause.keyOf_ranges (Value.isArray_of_isScalar hscalar), rangeKey_eq_nat hpartition]
  · intro hkind harray
    have hoff := contains_adjacentRanges_eq_false hbounds hkind
    refine ⟨hoff, (groupKey_singleton_iff _).mpr ?_⟩
    by_cases hnull : value = .null
    · rw [hnull] at hvalue
      exact Clause.key_of_null _ hvalue
    · rw [Clause.key_of_value ⟨field, .ranges (adjacentRanges bounds)⟩ hvalue hnull,
        Clause.keyOf_ranges harray, rangeKey_eq_null hoff]

/-- Bounds among the integers that floating-point numbers no longer tell apart, of both kinds of
numbers. -/
def largeBounds : List Value := [
  .int 9007199254740991, .number (.float .twoPow53), .int 9007199254740994]

/-- The integer `2 ^ 53 + 1` is not below the floating-point number `2 ^ 53`, which it is rounded
onto, but it is below the integer `2 ^ 53 + 2`. A text is not on the line of numbers. -/
theorem groupKey_largeBounds :
    largeBounds ≠ [] ∧
    (Clause.mk "id" (.ranges (adjacentRanges largeBounds))).fault? 0 = none ∧
    (Value.object [("id", .int 9007199254740993)]).resolve? "id" = some (.int 9007199254740993) ∧
    groupKey (.object [("id", .int 9007199254740993)])
      [⟨"id", .ranges (adjacentRanges largeBounds)⟩] = .ok [.nat 2] ∧
    groupKey (.object [("id", .string "new")])
      [⟨"id", .ranges (adjacentRanges largeBounds)⟩] = .ok [.null] := by
  have hbounds : largeBounds ≠ [] := List.cons_ne_nil _ _
  have hvalid : (Clause.mk "id" (.ranges (adjacentRanges largeBounds))).fault? 0 = none := by
    decide +kernel
  have hnumber : (Value.object [("id", .int 9007199254740993)]).resolve? "id" =
      some (.int 9007199254740993) := by decide +kernel
  have htext : (Value.object [("id", .string "new")]).resolve? "id" = some (.string "new") := by
    decide +kernel
  have hreached : boundsReached (.int 9007199254740993) largeBounds = 2 := by decide +kernel
  have hkey := ((groupKey_adjacentRanges hbounds hvalid hnumber).1
    ⟨.int 9007199254740991, List.mem_cons_self, .number _ _⟩).2
  rw [hreached] at hkey
  have hkind : ¬∃ bound ∈ largeBounds, (Value.string "new").SameKind bound := by
    rintro ⟨bound, hbound, hkind⟩
    cases hkind
    simp [largeBounds, Value.int] at hbound
  exact ⟨hbounds, hvalid, hnumber, hkey,
    ((groupKey_adjacentRanges hbounds hvalid htext).2 hkind rfl).2⟩

end Rollup
