import Rollup.Value.Basic

/-!
# The natural order of values

Numbers compare by value, strings by code points, and `false` is less than `true`. Values of
different kinds, nulls and containers do not compare. Two integers compare exactly; if one number is
a floating-point number, both are rounded to floating-point numbers first. To try signed words,
unsigned words and floating-point numbers one after another comes to the same
(`Number.compareWords?_eq`).
-/

namespace Rollup

namespace Number

/-- How two numbers compare. -/
def compare? : Number → Number → Option Ordering
  | integer m, integer n => some (compare m n)
  | m, n => Binary64.compare? m.toBinary64 n.toBinary64

/-- How two numbers compare by the words that hold them: two signed words as such, two unsigned
words as such, and any others as floating-point numbers. -/
def compareWords? (m n : Number) : Option Ordering :=
  match m.toSigned?, n.toSigned? with
  | some j, some k => some (compare j k)
  | _, _ =>
    match m.toUnsigned?, n.toUnsigned? with
    | some j, some k => some (compare j k)
    | _, _ => Binary64.compare? m.toBinary64 n.toBinary64

/-- Integers that no one kind of word holds differ in sign. So comparing numbers by their words is
comparing integers exactly. -/
theorem compareWords?_eq {m n : Number} (hm : m.InRange) (hn : n.InRange) :
    m.compareWords? n = m.compare? n := by
  cases m with
  | float x => cases n <;> simp [compareWords?, toSigned?, toUnsigned?, compare?]
  | integer j =>
    cases n with
    | float y => simp [compareWords?, toSigned?, toUnsigned?, compare?]
    | integer k =>
      rcases hm.words with ⟨hj, hsj, huj⟩ | ⟨hj, hsj | hsj, huj⟩ <;>
        rcases hn.words with ⟨hk, hsk, huk⟩ | ⟨hk, hsk | hsk, huk⟩ <;>
          simp only [compareWords?, hsj, hsk, huj, huk, compare?, toBinary64]
      -- What is left is a negative integer and one that only an unsigned word holds, either way.
      · rw [Binary64.compare?_ofInt_of_neg hj hk, Int.compare_eq_lt.mpr (Int.lt_of_lt_of_le hj hk)]
      · rw [← Binary64.compare?_swap, Binary64.compare?_ofInt_of_neg hk hj, Option.map_some,
          Int.compare_eq_gt.mpr (Int.lt_of_lt_of_le hk hj)]
        rfl

end Number

/-- How two values compare, if they are of one kind that is ordered. -/
def Value.compare? : Value → Value → Option Ordering
  | number m, number n => m.compare? n
  | string a, string b => some (compare a b)
  | bool a, bool b => some (compare a b)
  | _, _ => none

end Rollup
