import Mathlib.Data.List.Forall2
import Rollup.Proofs.Aggregate.FieldStats
import Rollup.Proofs.Value.RoundedOrder

/-!
# Extremes of values

The minimum and the maximum of a field are kept while its values come in one after another. Whatever
the values are, none of them is beyond the extreme in the end, and the extreme is of the kind of the
first scalar. If all values are of one kind that compares exactly, the order in which they come in
does not matter.
-/

namespace Rollup

namespace Value

/-- The values are all integers, all strings or all booleans. -/
def OneKind (values : List Value) : Prop :=
  (∀ value ∈ values, ∃ n, value = int n) ∨ (∀ value ∈ values, ∃ text, value = string text) ∨
    ∀ value ∈ values, ∃ flag, value = bool flag

section OneKind

variable {values : List Value} (h : OneKind values) {a b : Value}
include h

/-- Some of the values are of one kind as well. -/
theorem OneKind.of_subset {others : List Value} (hsubset : others ⊆ values) : OneKind others :=
  h.imp (fun h value hvalue => h value (hsubset hvalue))
    (Or.imp (fun h value hvalue => h value (hsubset hvalue))
      fun h value hvalue => h value (hsubset hvalue))

/-- Values of one kind are scalars. -/
theorem OneKind.isScalar (ha : a ∈ values) : a.isScalar = true := by
  rcases h with h | h | h <;>
  · obtain ⟨_, rfl⟩ := h a ha
    rfl

/-- Values of one kind compare. -/
theorem OneKind.exists_compare? (ha : a ∈ values) (hb : b ∈ values) :
    ∃ outcome, a.compare? b = some outcome := by
  rcases h with h | h | h <;>
  · obtain ⟨_, rfl⟩ := h a ha
    obtain ⟨_, rfl⟩ := h b hb
    exact ⟨_, rfl⟩

end OneKind

/-- A value does not compare with itself as less or greater. -/
theorem compare?_self_ne {wanted : Ordering} (hwanted : wanted ≠ .eq) (a : Value) :
    a.compare? a ≠ some wanted := by
  intro h
  have hswap := compare?_swap a a
  rw [h, Option.map_some, Option.some.injEq] at hswap
  cases wanted with
  | lt => cases hswap
  | eq => exact hwanted rfl
  | gt => cases hswap

end Value

/-- A value is one of several, and none of them compares with it as given. -/
structure IsExtreme (wanted : Ordering) (values : List Value) (value : Value) : Prop where
  /-- The value is one of them. -/
  mem : value ∈ values
  /-- None of them is beyond it. -/
  bound : ∀ other ∈ values, other.compare? value ≠ some wanted

/-- Two extremes of values of one kind compare as equal. -/
theorem IsExtreme.compare?_eq {wanted : Ordering} (hwanted : wanted ≠ .eq) {values : List Value}
    (hkind : Value.OneKind values) {a b : Value} (ha : IsExtreme wanted values a)
    (hb : IsExtreme wanted values b) : a.compare? b = some .eq := by
  obtain ⟨outcome, houtcome⟩ := hkind.exists_compare? ha.mem hb.mem
  have hab := hb.bound a ha.mem
  have hba := ha.bound b hb.mem
  rw [← Value.compare?_swap, houtcome, Option.map_some, ne_eq, Option.some.injEq] at hba
  rw [houtcome, ne_eq, Option.some.injEq] at hab
  rw [houtcome, Option.some.injEq]
  cases outcome <;> cases wanted <;> simp_all

namespace FieldStats

/-- The extreme of values that come in one after another. -/
def extremeOf (wanted : Ordering) (values : List Value) : Option Value :=
  values.foldl (extreme wanted) none

theorem extremeOf_concat (wanted : Ordering) (values : List Value) (value : Value) :
    extremeOf wanted (values ++ [value]) = extreme wanted (extremeOf wanted values) value := by
  rw [extremeOf, List.foldl_append]
  rfl

theorem min_ofValues (values : List Value) : (ofValues values).min = extremeOf .lt values := by
  induction values using List.reverseRecOn with
  | nil => rfl
  | append_singleton values value ih => rw [ofValues_concat, min_observe, ih, extremeOf_concat]

theorem max_ofValues (values : List Value) : (ofValues values).max = extremeOf .gt values := by
  induction values using List.reverseRecOn with
  | nil => rfl
  | append_singleton values value ih => rw [ofValues_concat, max_observe, ih, extremeOf_concat]

/-- Values have an extreme as soon as there is a scalar among them. -/
theorem isSome_extremeOf_iff {wanted : Ordering} {values : List Value} :
    (extremeOf wanted values).isSome = true ↔ ∃ value ∈ values, value.isScalar = true := by
  induction values using List.reverseRecOn with
  | nil => simp [extremeOf]
  | append_singleton values value ih =>
    simp only [extremeOf_concat, extreme, List.mem_append, or_and_right, exists_or,
      List.mem_singleton, exists_eq_left, ← ih]
    cases hold : extremeOf wanted values with
    | none => cases value.isScalar <;> simp
    | some old => split <;> simp

/-- Values of one kind have an extreme as soon as there is one of them. -/
theorem extremeOf_eq_none_iff {wanted : Ordering} {values : List Value}
    (hkind : Value.OneKind values) : extremeOf wanted values = none ↔ values = [] := by
  rw [← Option.not_isSome_iff_eq_none, isSome_extremeOf_iff, List.eq_nil_iff_forall_not_mem]
  constructor
  · intro hnone value hvalue
    exact hnone ⟨value, hvalue, hkind.isScalar hvalue⟩
  · rintro hnil ⟨value, hvalue, -⟩
    exact hnil value hvalue

/-- No value is beyond the extreme of values. -/
theorem isExtreme_extremeOf {wanted : Ordering} (hwanted : wanted ≠ .eq) {values : List Value} :
    ∀ value ∈ extremeOf wanted values, IsExtreme wanted values value := by
  induction values using List.reverseRecOn with
  | nil =>
    intro value hvalue
    cases hvalue
  | append_singleton values last ih =>
    intro value hvalue
    rw [extremeOf_concat, extreme] at hvalue
    split at hvalue
    · next hnew =>
      rw [Option.mem_some_iff] at hvalue
      subst hvalue
      refine ⟨List.mem_concat_self, ?_⟩
      intro other hother hbeyond
      rcases List.mem_append.mp hother with hmem | hmem
      · -- What is beyond the last value would have been beyond the extreme before it.
        cases hextreme : extremeOf wanted values with
        | none =>
          have hscalar : (extremeOf wanted values).isSome = true :=
            isSome_extremeOf_iff.mpr ⟨other, hmem, (Value.sameKind_of_compare? hbeyond).isScalar⟩
          rw [hextreme] at hscalar
          cases hscalar
        | some old =>
          have hlast : last.compare? old = some wanted := by simpa [hextreme] using hnew.2
          exact (ih old hextreme).bound other hmem (Value.compare?_trans hwanted hbeyond hlast)
      · rw [List.mem_singleton] at hmem
        subst hmem
        exact Value.compare?_self_ne hwanted other hbeyond
    · next hkeep =>
      have hextreme := ih value hvalue
      refine ⟨List.mem_append_left _ hextreme.mem, ?_⟩
      intro other hother
      rcases List.mem_append.mp hother with hmem | hmem
      · exact hextreme.bound other hmem
      · rw [List.mem_singleton] at hmem
        subst hmem
        intro hbeyond
        rw [Option.mem_def] at hvalue
        exact hkeep ⟨(Value.sameKind_of_compare? hbeyond).isScalar, by simpa [hvalue] using hbeyond⟩

/-- The extreme of values is of the kind of the first scalar among them. -/
theorem sameKind_extremeOf {wanted : Ordering} {values : List Value} {first : Value}
    (hfirst : values.find? Value.isScalar = some first) :
    ∀ value ∈ extremeOf wanted values, value.SameKind first := by
  induction values using List.reverseRecOn with
  | nil => cases hfirst
  | append_singleton values last ih =>
    intro value hvalue
    rw [extremeOf_concat, extreme] at hvalue
    rw [List.find?_append] at hfirst
    cases hbefore : values.find? Value.isScalar with
    | none =>
      -- The last value is the first scalar.
      have hnone : extremeOf wanted values = none := by
        rw [← Option.not_isSome_iff_eq_none, isSome_extremeOf_iff]
        simpa using hbefore
      have hlast : last = first := by
        rw [hbefore, Option.none_or] at hfirst
        exact (List.mem_singleton.mp (List.mem_of_find?_eq_some hfirst)).symm
      split at hvalue
      · next hnew =>
        rw [Option.mem_some_iff, hlast] at hvalue
        rw [← hvalue]
        exact Value.sameKind_self (hlast ▸ hnew.1)
      · rw [hnone] at hvalue
        cases hvalue
    | some scalar =>
      rw [hbefore, Option.some_or] at hfirst
      split at hvalue
      · next hnew =>
        rw [Option.mem_some_iff] at hvalue
        subst hvalue
        have hsome : (extremeOf wanted values).isSome = true :=
          isSome_extremeOf_iff.mpr
            ⟨scalar, List.mem_of_find?_eq_some hbefore, List.find?_some hbefore⟩
        obtain ⟨old, hold⟩ := Option.isSome_iff_exists.mp hsome
        have hcompare : last.compare? old = some wanted := by simpa [hold] using hnew.2
        exact (Value.sameKind_of_compare? hcompare).trans (ih (hbefore.trans hfirst) old hold)
      · exact ih (hbefore.trans hfirst) value hvalue

/-- Values of one kind have extremes that compare as equal, in whatever order they come in. -/
theorem extremeOf_perm {wanted : Ordering} (hwanted : wanted ≠ .eq) {values others : List Value}
    (hkind : Value.OneKind values) (hperm : values.Perm others) :
    Option.Rel (fun a b => a.compare? b = some .eq) (extremeOf wanted values)
      (extremeOf wanted others) := by
  have hother : Value.OneKind others := hkind.of_subset hperm.symm.subset
  cases hleft : extremeOf wanted values with
  | none =>
    have hnil := (extremeOf_eq_none_iff hkind).mp hleft
    rw [hnil, List.nil_perm] at hperm
    rw [hperm]
    exact .none
  | some a =>
    cases hright : extremeOf wanted others with
    | none =>
      have hnil := (extremeOf_eq_none_iff hother).mp hright
      rw [hnil, List.perm_nil] at hperm
      rw [hperm] at hleft
      cases hleft
    | some b =>
      have ha := isExtreme_extremeOf hwanted a hleft
      have hb := isExtreme_extremeOf hwanted b hright
      refine .some (ha.compare?_eq hwanted hkind ⟨hperm.symm.subset hb.mem, ?_⟩)
      exact fun value hvalue => hb.bound value (hperm.subset hvalue)

/-- What is left as an extreme after values have come in one after another. -/
structure IsRunningExtreme (wanted : Ordering) (values : List Value) (left : Option Value) :
    Prop where
  /-- Nothing is left exactly if there was no scalar. -/
  eq_none_iff : left = none ↔ ∀ value ∈ values, value.isScalar = false
  /-- It is one of the values, and none of them is beyond it. -/
  isExtreme : ∀ value ∈ left, IsExtreme wanted values value
  /-- It is of the kind of the first scalar. -/
  sameKind : ∀ value ∈ left, ∀ first ∈ values.find? Value.isScalar, value.SameKind first

/-- The extreme of values is a running extreme of them. -/
theorem isRunningExtreme_extremeOf {wanted : Ordering} (hwanted : wanted ≠ .eq)
    (values : List Value) : IsRunningExtreme wanted values (extremeOf wanted values) where
  eq_none_iff := by
    rw [← Option.not_isSome_iff_eq_none, isSome_extremeOf_iff]
    simp
  isExtreme := isExtreme_extremeOf hwanted
  sameKind value hvalue _ hfirst := sameKind_extremeOf hfirst value hvalue

/-- Minimum and maximum of any values, mixed kinds, containers and nulls included: each is there as
soon as there is a scalar, is one of the values, of the kind of the first scalar, and no value is
less than the minimum or greater than the maximum. -/
theorem isRunningExtreme_ofValues (values : List Value) :
    IsRunningExtreme .lt values (ofValues values).min ∧
      IsRunningExtreme .gt values (ofValues values).max := by
  rw [min_ofValues, max_ofValues]
  exact ⟨isRunningExtreme_extremeOf (by decide) values,
    isRunningExtreme_extremeOf (by decide) values⟩

end FieldStats

end Rollup
