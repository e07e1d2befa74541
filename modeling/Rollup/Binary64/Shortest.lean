import Rollup.Binary64.Decimal

/-!
# The shortest decimal that reads back

Among the decimals that round to a given floating-point number, `Binary64.Finite.shortest` takes one
with the fewest digits, and of those the nearest. On the grid of decimals with `n` digits only the
two neighbours of the value can be nearest, so one grid after another is tested, from one digit up
to seventeen.
-/

namespace Rollup

/-- Which way a value goes that lies halfway between two candidates. -/
inductive Tie where
  /-- To the candidate with an even last digit. -/
  | even
  /-- To the larger candidate. -/
  | away
deriving DecidableEq

/-- Takes the zeros at the end of a digit count into the exponent, at most `fuel` of them. -/
def dropZeros : (fuel : Nat) → (digits : Nat) → (exponent : Int) → Nat × Int
  | 0, digits, exponent => (digits, exponent)
  | fuel + 1, digits, exponent =>
    if digits % 10 = 0 then dropZeros fuel (digits / 10) (exponent + 1) else (digits, exponent)

namespace Binary64.Finite

/-- The decimal `digits * 10 ^ exponent` with the sign of `x` rounds to `x`. -/
def IsReadFrom (x : Finite) (digits : Nat) (exponent : Int) : Prop :=
  (Decimal.mk x.negative digits exponent).toBinary64 = .finite x

instance (x : Finite) (digits : Nat) (exponent : Int) : Decidable (x.IsReadFrom digits exponent) :=
  inferInstanceAs (Decidable (_ = _))

/--
The position of the decimal point of a number other than zero: the `k` with
`10 ^ (k - 1) ≤ |x| < 10 ^ k`. Below one it is found from the whole part of the reciprocal, which is
no power of ten there.
-/
def pointPosition (x : Finite) : Int :=
  if one ≤ x.units then Text.decimalLength (x.units / one)
  else 1 - (Text.decimalLength (one / x.units) : Int)

/-- The absolute value in multiples of `10 ^ exponent`, as a fraction. -/
def scaled (x : Finite) (exponent : Int) : Nat × Nat :=
  if 0 ≤ exponent then (x.units, one * 10 ^ exponent.toNat)
  else (x.units * 10 ^ (-exponent).toNat, one)

/-- Of the two neighbours of the value on the grid of multiples of `10 ^ exponent`, the nearest that
rounds to it. -/
def nearestOnGrid? (x : Finite) (tie : Tie) (exponent : Int) : Option Nat :=
  let (num, den) := x.scaled exponent
  let below := num / den
  let remainder := num % den
  let belowReads := decide (x.IsReadFrom below exponent)
  let aboveReads := decide (x.IsReadFrom (below + 1) exponent)
  let preferAbove : Bool :=
    if 2 * remainder = den then
      match tie with
      | .even => below % 2 = 1
      | .away => true
    else den < 2 * remainder
  if belowReads && aboveReads then some (if preferAbove then below + 1 else below)
  else if belowReads then some below
  else if aboveReads then some (below + 1)
  else none

/-- The digits and the exponent of the shortest decimal that rounds to `x`, without zeros at its
end. -/
def shortest (x : Finite) (tie : Tie) : Nat × Int :=
  if x.units = 0 then (0, 0)
  else
    let point := x.pointPosition
    let candidate := (List.range 17).findSome? fun n =>
      let exponent := point - (n + 1 : Nat)
      (x.nearestOnGrid? tie exponent).map fun digits => (digits, exponent)
    match candidate with
    | some (digits, exponent) => dropZeros 17 digits exponent
    | none => (x.units * 5 ^ 1074, -1074)

end Binary64.Finite

end Rollup
