import Rollup.Proofs.Aggregate.ClauseKey
import Rollup.Proofs.Value.IntegerArithmetic

/-!
# Grids of integers

A grid whose width and base are integers of moderate size sends every integer of moderate size to
the start of its cell. The quotient that finds the cell is rounded, but never beyond the next
integer, and whatever is computed from the number of the cell is a safe integer.
-/

namespace Rollup

/-- An integer lies in a cell, counted from the base, of the grid of the given width. -/
def InCell (width base cell n : Int) : Prop :=
  base + width * cell ≤ n ∧ n < base + width * (cell + 1)

instance (width base cell n : Int) : Decidable (InCell width base cell n) :=
  inferInstanceAs (Decidable (_ ∧ _))

/-- The start of the cell that an integer lies in, on the grid of the given width. -/
def cellStart (width base n : Int) : Int :=
  base + width * (n - base).fdiv width

section Integers

variable {width : Int} (hpos : 0 < width) (base : Int)
include hpos

/-- The grid has one cell for each integer. -/
theorem inCell_iff (cell n : Int) :
    InCell width base cell n ↔ cell = (n - base).fdiv width := by
  have hle : cell ≤ (n - base) / width ↔ base + width * cell ≤ n := by
    rw [Int.le_ediv_iff_mul_le hpos, Int.mul_comm]
    omega
  have hlt : (n - base) / width < cell + 1 ↔ n < base + width * (cell + 1) := by
    rw [Int.ediv_lt_iff_lt_mul hpos, Int.mul_comm]
    omega
  rw [Int.fdiv_eq_ediv_of_nonneg _ (Int.le_of_lt hpos), InCell, ← hle, ← hlt]
  omega

/-- An integer lies less than the width above the start of its cell. -/
theorem cellStart_le_lt (n : Int) :
    cellStart width base n ≤ n ∧ n < cellStart width base n + width := by
  obtain ⟨hle, hlt⟩ := (inCell_iff hpos base _ n).mpr rfl
  rw [Int.mul_add, Int.mul_one, ← Int.add_assoc] at hlt
  exact ⟨hle, hlt⟩

/-- Cells with the same start are the same. -/
theorem cellStart_eq_iff (m n : Int) :
    cellStart width base m = cellStart width base n ↔
      ∃ cell, InCell width base cell m ∧ InCell width base cell n := by
  simp only [inCell_iff hpos, exists_eq_left, cellStart]
  constructor
  · intro h
    exact Int.eq_of_mul_eq_mul_left (Int.ne_of_gt hpos) (Int.add_left_cancel h)
  · intro h
    rw [h]

end Integers

section Grid

variable {width base : Binary64} {i b : Int} (hwidth : width.HasValue i) (hbase : base.HasValue b)
  (hpos : 1 ≤ i) (hi : i ≤ 2 ^ 50) (hb : b.natAbs ≤ 2 ^ 50)
include hwidth hbase hpos hi hb

/-- An integer has the key that the arithmetic of integers gives. -/
theorem intervalKey_eq_cellStart {m : Number} {n : Int} (hm : m.value = n)
    (hn : n.natAbs ≤ 2 ^ 50) : intervalKey width base (.number m) = .int (cellStart i b n) := by
  have hsafe : 2 ^ 52 ≤ Number.maxSafeInteger := by decide
  have hnumber := Number.hasValue_toBinary64 hm (by omega)
  have hdifference := hnumber.sub hbase (by omega)
  have hcell := hdifference.floor_div hwidth (by omega) (by omega) hpos
  obtain ⟨hstart, hend⟩ := cellStart_le_lt hpos b n
  rw [cellStart, Int.fdiv_eq_ediv_of_nonneg _ (Int.le_of_lt hpos), Int.mul_comm,
    Int.add_comm b] at hstart hend ⊢
  have hproduct := hcell.mul hwidth (by omega)
  have hsum := hproduct.add hbase (by omega)
  exact Value.ofBinary64_of_hasValue hsum (by omega)

variable (field : String) {data : Value} {m : Number} {n : Int}
  (hdata : data.resolve? field = some (.number m)) (hm : m.value = n) (hn : n.natAbs ≤ 2 ^ 50)
include hdata hm hn

/-- A document whose field is an integer has the start of its cell as the key. -/
theorem groupKey_eq_cellStart :
    groupKey data [⟨field, .interval width base⟩] = .ok [.int (cellStart i b n)] := by
  rw [groupKey_singleton_iff]
  rw [Clause.key_of_value ⟨field, .interval width base⟩ hdata nofun, Clause.keyOf_interval rfl,
    intervalKey_eq_cellStart hwidth hbase hpos hi hb hm hn]

/-- On a grid of integers, an integer has the start of its cell as its key, exactly, and two
integers have the same key exactly if they lie in the same cell. -/
theorem groupKey_integerGrid :
    groupKey data [⟨field, .interval width base⟩] = .ok [.int (cellStart i b n)] ∧
      cellStart i b n ≤ n ∧ n < cellStart i b n + i ∧
      ∀ (other : Value) (m' : Number) (n' : Int), other.resolve? field = some (.number m') →
        m'.value = n' → n'.natAbs ≤ 2 ^ 50 →
        (groupKey data [⟨field, .interval width base⟩] =
            groupKey other [⟨field, .interval width base⟩] ↔
          ∃ cell, InCell i b cell n ∧ InCell i b cell n') := by
  have hkey := groupKey_eq_cellStart hwidth hbase hpos hi hb field hdata hm hn
  have hbounds := cellStart_le_lt hpos b n
  refine ⟨hkey, hbounds.1, hbounds.2, ?_⟩
  intro other m' n' hother hm' hn'
  have hotherKey := groupKey_eq_cellStart hwidth hbase hpos hi hb field hother hm' hn'
  rw [hkey, hotherKey, ← cellStart_eq_iff hpos]
  simp only [Except.ok.injEq, List.cons.injEq, and_true, Value.int, Value.number.injEq,
    Number.integer.injEq]

end Grid

/-- A grid of width three whose base is far from zero. -/
def farGrid : Clause :=
  ⟨"n", .interval (Binary64.ofInt 3) (Binary64.ofInt 1125899906842624)⟩

/-- The integer `1 - 2 ^ 50`, whose distance from the base of the grid is no multiple of three, has
the start of its cell as its key, and its cell is that of its neighbour `-2 ^ 50`, be it a
floating-point number. -/
theorem groupKey_farGrid :
    groupKey (.object [("n", .int (-1125899906842623))]) [farGrid] =
      .ok [.int (-1125899906842625)] ∧
    groupKey (.object [("n", .int (-1125899906842623))]) [farGrid] =
      groupKey (.object [("n", .number (.float
        (Number.ofSafe (-1125899906842624) (by decide))))]) [farGrid] := by
  have hwidth : (Binary64.ofInt 3).HasValue 3 := Binary64.hasValue_ofInt (by decide)
  have hbase : (Binary64.ofInt 1125899906842624).HasValue 1125899906842624 :=
    Binary64.hasValue_ofInt (by decide)
  have hinteger : (Value.object [("n", .int (-1125899906842623))]).resolve? "n" =
      some (.int (-1125899906842623)) := by decide +kernel
  have hsafe : (-1125899906842624 : Int).natAbs ≤ Number.maxSafeInteger := by decide
  have hfloat : (Value.object [("n", .number (.float
      (Number.ofSafe (-1125899906842624) hsafe)))]).resolve? "n" =
      some (.number (.float (Number.ofSafe (-1125899906842624) hsafe))) := rfl
  have hgrid := groupKey_integerGrid hwidth hbase (by decide) (by decide) (by decide) "n" hinteger
    rfl (by decide)
  exact ⟨hgrid.1, (hgrid.2.2.2 _ _ _ hfloat (Number.respells_ofSafe hsafe).value_eq.symm
    (by decide)).mpr ⟨-750599937895083, by decide⟩⟩

end Rollup
