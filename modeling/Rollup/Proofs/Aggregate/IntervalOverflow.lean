import Rollup.Proofs.Aggregate.ClauseKey
import Rollup.Proofs.Binary64.Accuracy
import Rollup.Proofs.Binary64.Overflow
import Rollup.Proofs.Spec.FirstFault
import Rollup.Proofs.Value.IntegerArithmetic

/-!
# Numbers that have no interval key

The key of a number under an interval is computed in four steps, each of which may leave the range
of the finite numbers although the number, the width and the base are in it. Then, and only then, a
number has the key null, like a document without the field.

It takes narrow cells or very large numbers to get there. With a width of one at least, a base and
numbers up to `2 ^ 1021` are safe and have number keys (`exists_groupKey_interval_eq_number`); this
safe region is a result of its own.
-/

namespace Rollup

open Binary64 (finite overflowUnits one)

/-- The start of the cell of a number overflows: the exact difference from the base, quotient by the
width, product with the width or sum with the base, of results that are still finite, reaches the
overflow threshold. -/
inductive CellOverflows (width base number : Binary64) : Prop where
  /-- The number is too far from the base. -/
  | difference {x b : Binary64.Finite} (hnumber : number = finite x) (hbase : base = finite b)
      (h : overflowUnits ≤ (x.toUnits - b.toUnits).natAbs)
  /-- The width goes too often into the difference. -/
  | quotient {d w : Binary64.Finite} (hdifference : number - base = finite d)
      (hwidth : width = finite w) (h : overflowUnits * w.units ≤ d.units * one)
  /-- The start of the cell is too far from the base. -/
  | product {q w : Binary64.Finite} (hquotient : (number - base) / width = finite q)
      (hwidth : width = finite w) (h : overflowUnits ≤ q.floor.natAbs * w.units)
  /-- The start of the cell is too far from zero. -/
  | sum {p b : Binary64.Finite}
      (hproduct : Binary64.floor ((number - base) / width) * width = finite p)
      (hbase : base = finite b) (h : overflowUnits ≤ (p.toUnits + b.toUnits).natAbs)

namespace Binary64

/-- The product of the greatest integer at or below a number with another number is rounded once. -/
theorem exists_floor_mul_eq_ofRatio (q w : Finite) :
    ∃ negative, floor (finite q) * finite w = ofRatio negative (q.floor.natAbs * w.units) 1 := by
  obtain ⟨f, hfloor, hunits⟩ := hasValue_floor q
  refine ⟨f.negative != w.negative, ?_⟩
  rw [hfloor, ← ofRatio_mul_left one_units_pos, Nat.mul_one, ← Nat.mul_assoc, Nat.mul_comm one,
    ← units_of_toUnits hunits]
  rfl

/-- The product of an integer and a finite number is finite exactly if the exact one is below the
threshold. -/
theorem isFinite_floor_mul_iff (q w : Finite) :
    (floor (finite q) * finite w).isFinite = true ↔ q.floor.natAbs * w.units < overflowUnits := by
  obtain ⟨negative, hproduct⟩ := exists_floor_mul_eq_ofRatio q w
  rw [hproduct, isFinite_ofRatio_iff Nat.one_pos, Nat.mul_one]

/-- The start of the cell is finite exactly if no step of its computation overflows. -/
theorem isFinite_cellStart_iff {w : Finite} (hw : 0 < w.units) (b x : Finite) :
    (floor ((finite x - finite b) / finite w) * finite w + finite b).isFinite = true ↔
      ¬CellOverflows (finite w) (finite b) (finite x) := by
  constructor
  · intro hsum hoverflow
    have hproduct := isFinite_of_add hsum
    have hquotient := isFinite_of_floor (isFinite_of_mul hproduct)
    have hdifference := isFinite_of_div hquotient
    cases hoverflow with
    | difference hnumber hbase h =>
      cases hnumber
      cases hbase
      exact Nat.not_lt.mpr h ((isFinite_sub_iff x b).mp hdifference)
    | @quotient d _ hd hwidth h =>
      cases hwidth
      rw [hd] at hquotient
      exact Nat.not_lt.mpr h ((isFinite_div_iff d w hw).mp hquotient)
    | @product q _ hq hwidth h =>
      cases hwidth
      rw [hq] at hproduct
      exact Nat.not_lt.mpr h ((isFinite_floor_mul_iff q w).mp hproduct)
    | @sum p _ hp hbase h =>
      cases hbase
      rw [hp] at hsum
      exact Nat.not_lt.mpr h ((isFinite_add_iff p b).mp hsum)
  · intro hfits
    -- Each step is finite, since its exact result would overflow otherwise.
    obtain ⟨d, hd⟩ := isFinite_iff.mp
      ((isFinite_sub_iff x b).mpr (Nat.lt_of_not_le fun h => hfits (.difference rfl rfl h)))
    obtain ⟨q, hq⟩ := isFinite_iff.mp
      ((isFinite_div_iff d w hw).mpr (Nat.lt_of_not_le fun h => hfits (.quotient hd rfl h)))
    rw [← hd] at hq
    obtain ⟨p, hp⟩ := isFinite_iff.mp
      ((isFinite_floor_mul_iff q w).mpr (Nat.lt_of_not_le fun h => hfits (.product hq rfl h)))
    rw [← hq] at hp
    rw [hp, isFinite_add_iff]
    exact Nat.lt_of_not_le fun h => hfits (.sum hp rfl h)

/-- The start of a cell, before the base is added, is hardly further away from zero than the
difference from the base and the width are together. -/
theorem floor_div_mul_le {w d q : Finite} {bound : Nat} (hone : one ≤ w.units)
    (hw : w.units ≤ bound) (hd : d.units ≤ 2 * bound) (hq : finite d / finite w = finite q) :
    q.floor.natAbs * w.units ≤ 5 * bound := by
  have hpos : 0 < w.units := Nat.lt_of_lt_of_le one_units_pos hone
  rw [finite_div_eq_ofRatio d hpos] at hq
  have hround := (roundUnits_error (d.units * one) hpos).1
  rw [← (eq_of_ofRatio hq).2] at hround
  -- The place of the last digit counts for no more than the width or the difference.
  have hplace : w.units * 2 ^ quotientExponent (d.units * one) w.units ≤
      w.units + d.units * one := by
    rcases quotientExponent_cases (d.units * one) hpos with hzero | hle
    · rw [hzero, Nat.pow_zero, Nat.mul_one]
      exact Nat.le_add_right _ _
    · exact Nat.le_trans (Nat.le_mul_of_pos_right _ (Nat.two_pow_pos 52))
        (Nat.le_trans hle (Nat.le_add_left _ _))
  have hfloor := Nat.mul_le_mul_right w.units q.natAbs_floor_mul_le
  rw [Nat.mul_right_comm, Nat.add_mul, Nat.mul_comm one] at hfloor
  have hdOne := Nat.mul_le_mul_right one hd
  have hwOne := Nat.mul_le_mul_right one hw
  have hwidth : w.units ≤ w.units * one := Nat.le_mul_of_pos_right _ one_units_pos
  rw [Nat.mul_assoc] at hdOne
  apply Nat.le_of_mul_le_mul_right _ one_units_pos
  rw [Nat.mul_assoc 5]
  omega

/-- On a grid with a width of one at least, numbers, widths and bases up to `2 ^ 1021` are no cause
of overflow. -/
theorem not_cellOverflows_of_le {w b x : Finite} (hone : one ≤ w.units)
    (hw : w.units ≤ 2 ^ 1021 * one) (hb : b.units ≤ 2 ^ 1021 * one)
    (hx : x.units ≤ 2 ^ 1021 * one) : ¬CellOverflows (finite w) (finite b) (finite x) := by
  have hthreshold : 6 * (2 ^ 1021 * one) < overflowUnits := by decide +kernel
  have htwice : Representable (2 * (2 ^ 1021 * one)) :=
    ⟨by decide +kernel, 1, 2096, by decide, by decide +kernel⟩
  have hfive : Representable (5 * (2 ^ 1021 * one)) :=
    ⟨by decide +kernel, 5, 2095, by decide, by decide +kernel⟩
  generalize 2 ^ 1021 * one = bound at *
  have hpos : 0 < w.units := Nat.lt_of_lt_of_le one_units_pos hone
  have hdifference : (x.toUnits - b.toUnits).natAbs ≤ 2 * bound := by
    have hxAbs := x.natAbs_toUnits
    have hbAbs := b.natAbs_toUnits
    omega
  obtain ⟨d, hd⟩ := isFinite_iff.mp ((isFinite_sub_iff x b).mpr (by omega))
  have hdUnits : d.units ≤ 2 * bound := by
    rw [units_of_sub hd]
    exact roundUnits_le_of_le hdifference htwice
  have hquotient : d.units * one < overflowUnits * w.units :=
    Nat.mul_lt_mul_of_lt_of_le (by omega) hone hpos
  obtain ⟨q, hq⟩ := isFinite_iff.mp ((isFinite_div_iff d w hpos).mpr hquotient)
  have hproduct := floor_div_mul_le hone hw hdUnits hq
  obtain ⟨p, hp⟩ := isFinite_iff.mp ((isFinite_floor_mul_iff q w).mpr (by omega))
  have hpUnits : p.units ≤ 5 * bound := by
    obtain ⟨negative, hround⟩ := exists_floor_mul_eq_ofRatio q w
    rw [(eq_of_ofRatio (hround.symm.trans hp)).2]
    exact roundUnits_le_of_le hproduct hfive
  rw [← isFinite_cellStart_iff hpos, hd, hq, hp, isFinite_add_iff]
  have hpAbs := p.natAbs_toUnits
  have hbAbs := b.natAbs_toUnits
  omega

end Binary64

/-- A number that a text can hold is not too large for a floating-point number. -/
theorem Number.InRange.isFinite_toBinary64 {n : Number} (h : n.InRange) :
    n.toBinary64.isFinite = true := by
  cases n with
  | integer n =>
    have hlarge : 2 ^ 64 * one < overflowUnits := by decide +kernel
    have habs : n.natAbs ≤ 2 ^ 64 := by
      simp only [InRange] at h
      omega
    rw [toBinary64, Binary64.ofInt, Binary64.isFinite_ofRatio_iff Nat.one_pos, Nat.mul_one]
    exact Nat.lt_of_le_of_lt (Nat.mul_le_mul_right one habs) hlarge
  | float x => rfl

/-- A computed number is a number exactly if it is finite, and null otherwise. -/
theorem Value.ofBinary64_cases (x : Binary64) :
    (x.isFinite = true ∧ ∃ m, ofBinary64 x = .number m) ∨
      (x.isFinite = false ∧ ofBinary64 x = .null) := by
  cases x with
  | finite x =>
    refine Or.inl ⟨rfl, ?_⟩
    rw [ofBinary64, Number.ofBinary64?]
    cases Number.safeInteger? x with
    | none => exact ⟨_, rfl⟩
    | some n => exact ⟨_, rfl⟩
  | _ => exact Or.inr ⟨rfl, rfl⟩

section Clause

variable {field : String} {width base : Binary64} {index : Nat}
  (hvalid : (Clause.mk field (.interval width base)).fault? index = none)
include hvalid

/-- A number has a number as its interval key, unless the start of its cell overflows. -/
theorem intervalKey_number_cases {n : Number} (hn : n.InRange) :
    (¬CellOverflows width base n.toBinary64 ∧
      ∃ key, intervalKey width base (.number n) = .number key) ∨
    (CellOverflows width base n.toBinary64 ∧ intervalKey width base (.number n) = .null) := by
  obtain ⟨⟨w, rfl, hpositive⟩, hbase⟩ :=
    Bucketing.consistent_interval_iff.mp (Clause.fault?_iff.1.mp hvalid).bucketing
  obtain ⟨b, rfl⟩ := Binary64.isFinite_iff.mp hbase
  have hw : 0 < w.units := by
    have habs := w.natAbs_toUnits
    have hunits := w.value_pos_iff.mp hpositive
    omega
  obtain ⟨x, hx⟩ := Binary64.isFinite_iff.mp hn.isFinite_toBinary64
  have hstart := Binary64.isFinite_cellStart_iff hw b x
  rw [← hx] at hstart
  rcases Value.ofBinary64_cases (Binary64.floor ((n.toBinary64 - finite b) / finite w) * finite w +
    finite b) with ⟨hfinite, hkey⟩ | ⟨hfinite, hkey⟩
  · exact Or.inl ⟨hstart.mp hfinite, hkey⟩
  · rw [hfinite] at hstart
    exact Or.inr ⟨Classical.not_not.mp fun h => Bool.false_ne_true (hstart.mpr h), hkey⟩

variable {data : Value} (hrange : ∀ n, data.resolve? field = some (.number n) → n.InRange)
include hrange

/-- The key of a clause with a valid interval is a number exactly for numbers whose cell does not
overflow, and null exactly for what is neither that nor an array. -/
theorem Clause.key_interval_iff :
    ((∃ key, (Clause.mk field (.interval width base)).key data = .ok (.number key)) ↔
      ∃ n, data.resolve? field = some (.number n) ∧ ¬CellOverflows width base n.toBinary64) ∧
    ((Clause.mk field (.interval width base)).key data = .ok .null ↔
      data.resolve? field = none ∨
      ∃ value, data.resolve? field = some value ∧ value.isArray = false ∧
        ∀ n, value = .number n → CellOverflows width base n.toBinary64) := by
  cases hfield : data.resolve? field with
  | none =>
    rw [Clause.key_of_absent ⟨field, .interval width base⟩ hfield]
    simp
  | some value =>
    cases value with
    | null =>
      rw [Clause.key_of_null ⟨field, .interval width base⟩ hfield]
      simp [Value.isArray]
    | number n =>
      rw [Clause.key_of_value ⟨field, .interval width base⟩ hfield nofun, Clause.keyOf_interval rfl]
      rcases intervalKey_number_cases hvalid (hrange n hfield) with
        ⟨hfits, key, hkey⟩ | ⟨hoverflow, hkey⟩
      · simp [hkey, hfits, Value.isArray]
      · simp [hkey, hoverflow, Value.isArray]
    | array elements =>
      rw [Clause.key_of_value ⟨field, .interval width base⟩ hfield nofun,
        Clause.keyOf_array ⟨field, .interval width base⟩]
      simp [Value.isArray]
    | _ =>
      rw [Clause.key_of_value ⟨field, .interval width base⟩ hfield nofun, Clause.keyOf_interval rfl]
      simp [intervalKey, Value.isArray]

/-- The key under a valid interval is a number exactly for numbers whose cell does not overflow. It
is null exactly without the field, for a value that is neither a number nor an array, and for a
number whose cell overflows. Other clauses beside the interval change nothing in this. -/
theorem groupKey_interval_iff :
    ((∃ key, groupKey data [⟨field, .interval width base⟩] = .ok [.number key]) ↔
      ∃ n, data.resolve? field = some (.number n) ∧ ¬CellOverflows width base n.toBinary64) ∧
    (groupKey data [⟨field, .interval width base⟩] = .ok [.null] ↔
      data.resolve? field = none ∨
      ∃ value, data.resolve? field = some value ∧ value.isArray = false ∧
        ∀ n, value = .number n → CellOverflows width base n.toBinary64) ∧
    ∀ (clauses : List Clause) (keys : List Value) (position : Nat),
      clauses[position]? = some ⟨field, .interval width base⟩ → groupKey data clauses = .ok keys →
      ∃ key, keys[position]? = some key ∧
        groupKey data [⟨field, .interval width base⟩] = .ok [key] := by
  have hkey := Clause.key_interval_iff hvalid hrange
  simp only [groupKey_singleton_iff]
  refine ⟨hkey.1, hkey.2, ?_⟩
  intro clauses keys position hclause hkeys
  obtain ⟨key, hposition, halone⟩ := groupKey_getElem? _ hkeys hclause
  exact ⟨key, hposition, (groupKey_singleton_iff _).mp halone⟩

end Clause

/-- On a grid with a width of one at least, no number up to `2 ^ 1021` goes without a key, if the
width and the base go no further. -/
theorem exists_groupKey_interval_eq_number {field : String} {w b x : Binary64.Finite} {index : Nat}
    (hvalid : (Clause.mk field (.interval (finite w) (finite b))).fault? index = none)
    (hone : one ≤ w.units) (hw : w.units ≤ 2 ^ 1021 * one) (hb : b.units ≤ 2 ^ 1021 * one)
    {data : Value} {n : Number} (hfield : data.resolve? field = some (.number n)) (hn : n.InRange)
    (hx : n.toBinary64 = finite x) (hxle : x.units ≤ 2 ^ 1021 * one) :
    ∃ key, groupKey data [⟨field, .interval (finite w) (finite b)⟩] = .ok [.number key] := by
  have hfits := Binary64.not_cellOverflows_of_le hone hw hb hxle
  rw [← hx] at hfits
  simp only [groupKey_singleton_iff]
  refine (Clause.key_interval_iff hvalid ?_).1.mpr ⟨n, hfield, hfits⟩
  intro m hm
  rw [hfield, Option.some.injEq, Value.number.injEq] at hm
  rwa [← hm]

/-- A grid of halves. -/
def halves : Clause :=
  ⟨"v", .interval (finite (.twoPowUnits 1073 (by decide))) (finite (Number.ofSafe 0 (by decide)))⟩

/-- A document with a power of two, in units. -/
def powerDocument (exponent : Nat) (h : exponent ≤ 2097) : Value :=
  .object [("v", .number (.float (.twoPowUnits exponent h)))]

/-- On the grid of halves the number `2 ^ 1022` has a number as its key. -/
theorem groupKey_halves_twoPow1022 :
    halves.fault? 0 = none ∧
    ∃ key, groupKey (powerDocument 2096 (by decide)) [halves] = .ok [.number key] := by
  have hvalid : halves.fault? 0 = none := by decide +kernel
  have hfield : (powerDocument 2096 (by decide)).resolve? "v" =
      some (.number (.float (.twoPowUnits 2096 (by decide)))) := by decide +kernel
  refine ⟨hvalid, (groupKey_interval_iff hvalid ?_).1.mpr ⟨_, hfield, ?_⟩⟩
  · intro n hn
    rw [hfield, Option.some.injEq, Value.number.injEq] at hn
    rw [← hn]
    exact trivial
  · exact (Binary64.isFinite_cellStart_iff (by decide +kernel) _ _).mp (by decide +kernel)

/-- The number `2 ^ 1023` lies on the grid of halves, but has too many halves: it has the key null,
like a document without the field. -/
theorem groupKey_halves_twoPow1023 :
    halves.fault? 0 = none ∧
    (powerDocument 2097 (by decide)).resolve? "v" =
      some (.number (.float (.twoPowUnits 2097 (by decide)))) ∧
    groupKey (powerDocument 2097 (by decide)) [halves] = .ok [.null] ∧
    groupKey (.object []) [halves] = .ok [.null] := by
  decide +kernel

end Rollup
