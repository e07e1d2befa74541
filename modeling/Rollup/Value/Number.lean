import Rollup.Binary64.Text

/-!
# Numbers

A number in a document is an exact integer or a finite floating-point number. The two stay distinct,
`2` and `2.0` being written differently, until a rule of order or of grouping unifies them.
-/

namespace Rollup

/-- A number of a document. -/
inductive Number where
  /-- An exact integer. -/
  | integer (n : Int)
  /-- A finite floating-point number. -/
  | float (x : Binary64.Finite)
deriving DecidableEq

/-- The integer is a signed word of 64 bits. -/
def FitsSigned (n : Int) : Prop := -2 ^ 63 ≤ n ∧ n < 2 ^ 63

instance (n : Int) : Decidable (FitsSigned n) := inferInstanceAs (Decidable (_ ∧ _))

namespace Number

/-- The nearest floating-point number. -/
def toBinary64 : Number → Binary64
  | integer n => Binary64.ofInt n
  | float x => .finite x

/-- The exact value of an integer that is a signed word of 64 bits. -/
def toSigned? : Number → Option Int
  | integer n => if FitsSigned n then some n else none
  | float _ => none

/-- The exact value of an integer that is an unsigned word of 64 bits. -/
def toUnsigned? : Number → Option Int
  | integer n => if 0 ≤ n ∧ n < 2 ^ 64 then some n else none
  | float _ => none

/-- The number is one that a text can hold: an integer is a signed or an unsigned word of 64
bits. -/
def InRange : Number → Prop
  | integer n => -2 ^ 63 ≤ n ∧ n < 2 ^ 64
  | float _ => True

/-- An integer that a text can hold is a signed word if it is negative, and an unsigned one
otherwise. -/
theorem InRange.words {n : Int} (h : (integer n).InRange) :
    (n < 0 ∧ toSigned? (integer n) = some n ∧ toUnsigned? (integer n) = none) ∨
      (0 ≤ n ∧ (toSigned? (integer n) = some n ∨ toSigned? (integer n) = none) ∧
        toUnsigned? (integer n) = some n) := by
  simp only [InRange] at h
  by_cases hn : n < 0
  · exact Or.inl ⟨hn, if_pos ⟨h.1, by omega⟩, if_neg (by omega)⟩
  · refine Or.inr ⟨by omega, ?_, if_pos ⟨by omega, h.2⟩⟩
    by_cases hfits : FitsSigned n
    · exact Or.inl (if_pos hfits)
    · exact Or.inr (if_neg hfits)

/-- The text in a given notation for floating-point numbers. -/
def text (style : NumberStyle) : Number → List Char
  | integer n => Text.intText n
  | float x => style.finiteText x

/-- The largest integer up to which every integer is a floating-point number. -/
def maxSafeInteger : Nat := 2 ^ 53 - 1

/-- The value of a finite number that is an integer of at most 53 binary digits. -/
def safeInteger? (x : Binary64.Finite) : Option Int :=
  if x.isIntegral && x.units ≤ maxSafeInteger * Binary64.one then some x.floor else none

/-- A computed number: an integer where it safely is one, and nothing where it is not finite. -/
def ofBinary64? : Binary64 → Option Number
  | .finite x =>
    match safeInteger? x with
    | some n => some (integer n)
    | none => some (float x)
  | _ => none

end Number

end Rollup
