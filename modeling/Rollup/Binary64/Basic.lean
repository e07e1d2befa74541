/-!
# Binary floating point, 64 bits

Every finite number of the format is a whole number of units, a unit being `2 ^ -1074`, the smallest
positive one. So a finite number is a sign and a natural number of units whose binary expansion has
at most 53 significant digits, and all arithmetic is exact arithmetic on units followed by one
rounding, `Binary64.ofRatio`, to the nearest representable number, a tie going to the even
neighbour.
-/

namespace Rollup

-- Powers here are those of `Nat` and `Int` themselves, also where an algebraic library has its own.
attribute [instance (high + 1), default_instance (high + 1)] instPowNat

namespace Binary64

/-- The units that make one. -/
def one : Nat := 2 ^ 1074

theorem one_units_pos : 0 < one := by
  unfold one
  exact Nat.two_pow_pos 1074

/-- The units of the largest finite number. -/
def maxUnits : Nat := (2 ^ 53 - 1) * 2 ^ 2045

/-- A number of units that the format holds: 53 significant binary digits, and no overflow. -/
def Representable (units : Nat) : Prop :=
  units ≤ maxUnits ∧
    ∃ significand exponent, significand < 2 ^ 53 ∧ units = significand * 2 ^ exponent

/-- A finite number: a sign and a representable number of units. Zero has both signs. -/
structure Finite where
  /-- Whether the sign is a minus. -/
  negative : Bool
  /-- The absolute value, in units. -/
  units : Nat
  /-- The format holds the absolute value. -/
  representable : Representable units
deriving DecidableEq

/-- The value of a finite number, in units. -/
def Finite.toUnits (x : Finite) : Int :=
  if x.negative then -x.units else x.units

end Binary64

/-- A floating-point number. There is one not-a-number. -/
inductive Binary64 where
  /-- A finite number. -/
  | finite (x : Binary64.Finite)
  /-- An infinity, with its sign. -/
  | infinite (negative : Bool)
  /-- The result of an operation without one. -/
  | nan
deriving DecidableEq

namespace Binary64

/-- The quotient of two natural numbers, rounded to the nearest natural number, a tie to the even
one. -/
def roundQuotient (num den : Nat) : Nat :=
  let quotient := num / den
  let remainder := num % den
  if den < 2 * remainder ∨ (den = 2 * remainder ∧ quotient % 2 = 1) then quotient + 1 else quotient

theorem roundQuotient_le (num den : Nat) : roundQuotient num den ≤ num / den + 1 := by
  unfold roundQuotient
  dsimp only
  split <;> omega

/-- A rounded quotient is at least the whole part of the quotient. -/
theorem le_roundQuotient (num den : Nat) : num / den ≤ roundQuotient num den := by
  unfold roundQuotient
  dsimp only
  split <;> omega

/-- The binary exponent at which a quotient of units has 53 significant binary digits. -/
def quotientExponent (num den : Nat) : Nat :=
  (num / den).log2 - 52

/-- A quotient of units, rounded to 53 significant binary digits. -/
def roundUnits (num den : Nat) : Nat :=
  let exponent := quotientExponent num den
  roundQuotient num (den * 2 ^ exponent) * 2 ^ exponent

theorem div_quotientExponent_lt (num den : Nat) :
    num / (den * 2 ^ quotientExponent num den) < 2 ^ 53 := by
  rw [← Nat.div_div_eq_div_mul, Nat.div_lt_iff_lt_mul (Nat.two_pow_pos _), ← Nat.pow_add]
  refine Nat.lt_of_lt_of_le (Nat.lt_log2_self (n := num / den)) ?_
  exact Nat.pow_le_pow_right (by decide) (by unfold quotientExponent; omega)

/-- A rounded quotient has at most 53 significant binary digits. -/
theorem roundUnits_significant (num den : Nat) :
    ∃ significand exponent, significand < 2 ^ 53 ∧
      roundUnits num den = significand * 2 ^ exponent := by
  have hlt := div_quotientExponent_lt num den
  have hle := roundQuotient_le num (den * 2 ^ quotientExponent num den)
  by_cases h : roundQuotient num (den * 2 ^ quotientExponent num den) < 2 ^ 53
  · exact ⟨_, quotientExponent num den, h, rfl⟩
  · have heq : roundQuotient num (den * 2 ^ quotientExponent num den) = 2 ^ 53 := by omega
    refine ⟨1, 53 + quotientExponent num den, by decide, ?_⟩
    simp only [roundUnits, heq, Nat.pow_add, Nat.one_mul]

/-- Rounding keeps the leading binary digit of a quotient of units. -/
theorem two_pow_log2_div_le_roundUnits {num den : Nat} (h : num / den ≠ 0) :
    2 ^ (num / den).log2 ≤ roundUnits num den := by
  have hexp : quotientExponent num den ≤ (num / den).log2 := by
    unfold quotientExponent
    omega
  have hsplit : 2 ^ ((num / den).log2 - quotientExponent num den) * 2 ^ quotientExponent num den
      = 2 ^ (num / den).log2 := by
    rw [← Nat.pow_add, Nat.sub_add_cancel hexp]
  have hdiv : 2 ^ ((num / den).log2 - quotientExponent num den) ≤
      num / (den * 2 ^ quotientExponent num den) := by
    rw [← Nat.div_div_eq_div_mul, Nat.le_div_iff_mul_le (Nat.two_pow_pos _), hsplit]
    exact Nat.log2_self_le h
  rw [roundUnits, ← hsplit]
  exact Nat.mul_le_mul_right _ (Nat.le_trans hdiv (le_roundQuotient _ _))

/-- Rounding keeps the leading binary digit of a number of units. -/
theorem two_pow_log2_le_roundUnits {units : Nat} (h : units ≠ 0) :
    2 ^ units.log2 ≤ roundUnits units 1 := by
  rw [← Nat.div_one units] at h
  simpa using two_pow_log2_div_le_roundUnits h

/-- Units other than zero are not rounded to zero. -/
theorem roundUnits_pos {units : Nat} (h : 0 < units) : 0 < roundUnits units 1 :=
  Nat.lt_of_lt_of_le (Nat.two_pow_pos _) (two_pow_log2_le_roundUnits (Nat.ne_of_gt h))

/-- The number nearest to `num / den` units with the given sign; too large a quotient gives
infinity. -/
def ofRatio (negative : Bool) (num den : Nat) : Binary64 :=
  if h : roundUnits num den ≤ maxUnits then
    finite ⟨negative, roundUnits num den, h, roundUnits_significant num den⟩
  else infinite negative

/-- The number nearest to a whole number of units; zero takes the given sign. -/
def ofUnits (zeroNegative : Bool) (units : Int) : Binary64 :=
  ofRatio (if units = 0 then zeroNegative else decide (units < 0)) units.natAbs 1

/-- The number nearest to an integer. -/
def ofInt (n : Int) : Binary64 :=
  ofRatio (decide (n < 0)) (n.natAbs * one) 1

/-- Zero. -/
def zero : Binary64 := ofInt 0

/-- The same number with the other sign. -/
def neg : Binary64 → Binary64
  | finite x => finite { x with negative := !x.negative }
  | infinite negative => infinite !negative
  | nan => nan

/-- The sum. Two zeros make a negative zero only if both are negative. -/
def add : Binary64 → Binary64 → Binary64
  | finite x, finite y => ofUnits (x.negative && y.negative) (x.toUnits + y.toUnits)
  | infinite a, infinite b => if a = b then infinite a else nan
  | infinite a, finite _ => infinite a
  | finite _, infinite b => infinite b
  | nan, _ => nan
  | _, nan => nan

/-- The difference. -/
def sub (x y : Binary64) : Binary64 :=
  add x (neg y)

/-- The product. -/
def mul : Binary64 → Binary64 → Binary64
  | finite x, finite y => ofRatio (x.negative != y.negative) (x.units * y.units) one
  | infinite a, infinite b => infinite (a != b)
  | infinite a, finite y => if y.units = 0 then nan else infinite (a != y.negative)
  | finite x, infinite b => if x.units = 0 then nan else infinite (x.negative != b)
  | nan, _ => nan
  | _, nan => nan

/-- The quotient. -/
def div : Binary64 → Binary64 → Binary64
  | finite x, finite y =>
    if y.units = 0 then
      if x.units = 0 then nan else infinite (x.negative != y.negative)
    else ofRatio (x.negative != y.negative) (x.units * one) y.units
  | infinite _, infinite _ => nan
  | infinite a, finite y => infinite (a != y.negative)
  | finite x, infinite b => ofRatio (x.negative != b) 0 1
  | nan, _ => nan
  | _, nan => nan

instance : Neg Binary64 := ⟨neg⟩
instance : Add Binary64 := ⟨add⟩
instance : Sub Binary64 := ⟨sub⟩
instance : Mul Binary64 := ⟨mul⟩
instance : Div Binary64 := ⟨div⟩

/-- Whether a finite number is an integer. -/
def Finite.isIntegral (x : Finite) : Bool :=
  x.units % one = 0

/-- The greatest integer at or below a finite number. -/
def Finite.floor (x : Finite) : Int :=
  x.toUnits / (one : Nat)

/-- The greatest integer at or below a number, as a number; a negative zero stays one. -/
def floor : Binary64 → Binary64
  | finite x => if x.isIntegral then finite x else ofInt x.floor
  | x => x

/-- Whether a number is neither infinite nor not a number. -/
def isFinite : Binary64 → Bool
  | finite _ => true
  | _ => false

/-- How two numbers compare; not-a-number compares with nothing, and the two zeros are equal. -/
def compare? : Binary64 → Binary64 → Option Ordering
  | finite x, finite y => some (compare x.toUnits y.toUnits)
  | infinite a, infinite b => some (compare b a)
  | infinite a, finite _ => some (if a then .lt else .gt)
  | finite _, infinite b => some (if b then .gt else .lt)
  | nan, _ => none
  | _, nan => none

/-- Numbers compare the other way round with the outcome swapped. -/
theorem compare?_swap (x y : Binary64) :
    (compare? x y).map Ordering.swap = compare? y x := by
  cases x with
  | nan => cases y <;> rfl
  | infinite a =>
    cases y with
    | nan => rfl
    | infinite b => cases a <;> cases b <;> rfl
    | finite y => cases a <;> rfl
  | finite x =>
    cases y with
    | nan => rfl
    | infinite b => cases b <;> rfl
    | finite y =>
      simp only [compare?, Option.map_some, Option.some.injEq]
      exact Std.OrientedCmp.eq_swap.symm

/-- A negative integer is less than one that is not negative, also when both are rounded. -/
theorem compare?_ofInt_of_neg {j k : Int} (hj : j < 0) (hk : 0 ≤ k) :
    compare? (ofInt j) (ofInt k) = some .lt := by
  have hround : 0 < roundUnits (j.natAbs * one) 1 :=
    roundUnits_pos (Nat.mul_pos (Int.natAbs_pos.mpr (Int.ne_of_lt hj)) one_units_pos)
  rw [ofInt, ofInt, ofRatio, ofRatio, decide_eq_true hj, decide_eq_false (Int.not_lt.mpr hk)]
  split <;> split
  · rw [compare?, Finite.toUnits, Finite.toUnits, if_pos rfl, if_neg Bool.false_ne_true,
      Option.some.injEq, Int.compare_eq_lt]
    dsimp only
    omega
  all_goals rfl

end Binary64

end Rollup
