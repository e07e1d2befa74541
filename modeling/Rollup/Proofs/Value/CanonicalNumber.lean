import Rollup.Proofs.Binary64.Text
import Rollup.Proofs.Value.Number
import Rollup.Value.CanonicalKey

/-!
# Canonical spellings and values of numbers

Grouping takes numbers together whose canonical spellings agree. That is equality of values but for
one kind of pair: an integer, and a large integral floating-point number whose shortest digits,
filled up with zeros, do not spell its value.
-/

namespace Rollup

open Binary64

/-- A large integral number whose shortest digits, with zeros behind them, do not spell its
value. -/
def Binary64.Finite.Padded (x : Finite) : Prop :=
  ∃ k : Int, x.toUnits = k * one ∧ Number.maxSafeInteger < k.natAbs ∧ x.spelledInteger? ≠ some k

namespace Number

/-- An integer with a padded number that has its value or its spelling. -/
def Confused : Number → Number → Prop
  | integer n, float x | float x, integer n =>
    x.Padded ∧ ((integer n).value = (float x).value ∨ x.spelledInteger? = some n)
  | _, _ => False

theorem confused_comm (m n : Number) : Confused m n ↔ Confused n m := by
  cases m <;> cases n <;> exact Iff.rfl

theorem canonical_float_of_safe {x : Finite} {k : Int} (h : safeInteger? x = some k) :
    (float x).canonical = Text.intText k := by
  simp only [canonical, h]

theorem canonical_float_of_not_safe {x : Finite} (h : safeInteger? x = none) :
    (float x).canonical = NumberStyle.plain.finiteText x := by
  simp only [canonical, h]

/-- The plain text of a number that is no safe integer is not the text of a safe integer. -/
private theorem plain_finiteText_ne_of_safe {x : Finite} {n : Int} (hx : safeInteger? x = none)
    (hn : n.natAbs ≤ maxSafeInteger) : NumberStyle.plain.finiteText x ≠ Text.intText n := by
  intro htext
  have hunits := toUnits_of_ofInt hn (ofInt_eq_of_plain_finiteText htext)
  exact Nat.not_le.mpr (maxSafeInteger_lt_of_toUnits hx hunits) hn

/-- A safe integer differs from a number that is none, both in spelling and in value. -/
private theorem canonical_ne_of_safe {x y : Finite} {k : Int} (hx : safeInteger? x = some k)
    (hy : safeInteger? y = none) :
    (float x).canonical ≠ (float y).canonical ∧ x.toUnits ≠ y.toUnits := by
  obtain ⟨hunits, hk⟩ := (safeInteger?_eq_some_iff x k).mp hx
  rw [canonical_float_of_safe hx, canonical_float_of_not_safe hy]
  refine ⟨(plain_finiteText_ne_of_safe hy hk).symm, ?_⟩
  intro heq
  rw [heq] at hunits
  exact Nat.not_le.mpr (maxSafeInteger_lt_of_toUnits hy hunits) hk

/-- Floating-point numbers share a spelling exactly if they have the same units. -/
private theorem canonical_float_eq_iff (x y : Finite) :
    (float x).canonical = (float y).canonical ↔ x.toUnits = y.toUnits := by
  cases hx : safeInteger? x with
  | some j =>
    cases hy : safeInteger? y with
    | some k =>
      obtain ⟨hxunits, -⟩ := (safeInteger?_eq_some_iff x j).mp hx
      obtain ⟨hyunits, -⟩ := (safeInteger?_eq_some_iff y k).mp hy
      rw [canonical_float_of_safe hx, canonical_float_of_safe hy, hxunits, hyunits, units_inj]
      exact ⟨Text.intText_inj, congrArg Text.intText⟩
    | none =>
      obtain ⟨htext, hunits⟩ := canonical_ne_of_safe hx hy
      exact iff_of_false htext hunits
  | none =>
    cases hy : safeInteger? y with
    | some k =>
      obtain ⟨htext, hunits⟩ := canonical_ne_of_safe hy hx
      exact iff_of_false htext.symm hunits.symm
    | none =>
      rw [canonical_float_of_not_safe hx, canonical_float_of_not_safe hy]
      constructor
      · intro htext
        rw [plain_finiteText_inj htext]
      · intro hunits
        rw [eq_of_toUnits (units_ne_zero_of_safeInteger? hx) hunits]

/-- An integral number that is no safe integer is padded if its digits do not spell its value. -/
private theorem padded_iff {x : Finite} {k : Int} (hx : safeInteger? x = none)
    (hk : x.toUnits = k * one) : x.Padded ↔ x.spelledInteger? ≠ some k := by
  constructor
  · rintro ⟨k', hk', -, hspelled⟩
    rw [hk, units_inj] at hk'
    rw [hk']
    exact hspelled
  · intro hspelled
    exact ⟨k, hk, maxSafeInteger_lt_of_toUnits hx hk, hspelled⟩

/-- An integer shares the spelling of a number that is no safe integer if the digits of the number
spell it. -/
private theorem canonical_integer_eq_iff {n : Int} {x : Finite} (hx : safeInteger? x = none) :
    (integer n).canonical = (float x).canonical ↔ x.spelledInteger? = some n := by
  rw [canonical_float_of_not_safe hx, eq_comm]
  exact plain_finiteText_eq_intText_iff (units_ne_zero_of_safeInteger? hx) n

/-- Only an integral number has digits that spell an integer. -/
private theorem exists_toUnits_of_spelledInteger? {n : Int} {x : Finite}
    (hx : safeInteger? x = none) (h : x.spelledInteger? = some n) :
    ∃ k : Int, x.toUnits = k * one := by
  have htext := (plain_finiteText_eq_intText_iff (units_ne_zero_of_safeInteger? hx) n).mpr h
  exact exists_toUnits_of_ofInt (ofInt_eq_of_plain_finiteText htext)

/-- The case of a safe integral number, which is spelled like the integer that it is. -/
private theorem canonical_eq_iff_of_safe (n : Int) {x : Finite} {k : Int}
    (hx : safeInteger? x = some k) :
    ((integer n).canonical = (float x).canonical ↔ n * one = x.toUnits) ∧ ¬x.Padded := by
  obtain ⟨hunits, hk⟩ := (safeInteger?_eq_some_iff x k).mp hx
  rw [canonical_float_of_safe hx, hunits, units_inj]
  refine ⟨⟨Text.intText_inj, congrArg Text.intText⟩, ?_⟩
  rintro ⟨k', hk', hlarge, -⟩
  rw [hunits, units_inj] at hk'
  rw [hk'] at hk
  exact Nat.not_le.mpr hlarge hk

/-- The case of any other number: it is integral, or it is neither equal to the integer nor spelled
like it. -/
private theorem canonical_eq_iff_of_not_safe (n : Int) {x : Finite} (hx : safeInteger? x = none) :
    ((integer n).canonical = (float x).canonical ↔ n * one = x.toUnits) ↔
      ¬(x.Padded ∧ (n * one = x.toUnits ∨ x.spelledInteger? = some n)) := by
  rw [canonical_integer_eq_iff hx]
  by_cases hintegral : ∃ k : Int, x.toUnits = k * one
  · obtain ⟨k, hk⟩ := hintegral
    rw [padded_iff hx hk, hk, units_inj]
    by_cases hspelled : x.spelledInteger? = some k
    · rw [hspelled, Option.some.injEq]
      exact iff_of_true eq_comm fun hconfused => hconfused.1 rfl
    · -- The digits miss the value, so an integer cannot have both.
      rw [and_iff_right hspelled]
      constructor
      · rintro hiff (hn | hn)
        · exact hspelled (hn ▸ hiff.mpr hn)
        · exact hspelled (hiff.mp hn ▸ hn)
      · intro hneither
        exact iff_of_false (fun hn => hneither (.inr hn)) (fun hn => hneither (.inl hn))
  · have htext : x.spelledInteger? ≠ some n :=
      fun hspelled => hintegral (exists_toUnits_of_spelledInteger? hx hspelled)
    have hunits : n * one ≠ x.toUnits := fun hn => hintegral ⟨n, hn.symm⟩
    refine iff_of_true (iff_of_false htext hunits) ?_
    rintro ⟨⟨k, hk, -⟩, -⟩
    exact hintegral ⟨k, hk⟩

/-- An integer and a floating-point number share a spelling exactly if they have the same value,
unless they are confused. -/
private theorem canonical_eq_iff_integer_float (n : Int) (x : Finite) :
    ((integer n).canonical = (float x).canonical ↔ (integer n).value = (float x).value) ↔
      ¬Confused (integer n) (float x) := by
  have hvalue : (integer n).value = (float x).value ↔ n * one = x.toUnits := value_eq_iff _ _
  rw [Confused, hvalue]
  cases hx : safeInteger? x with
  | some k =>
    obtain ⟨hiff, hpadded⟩ := canonical_eq_iff_of_safe n hx
    exact iff_of_true hiff fun hconfused => hpadded hconfused.1
  | none => exact canonical_eq_iff_of_not_safe n hx

/-- Two numbers share a spelling exactly if they have the same value, unless they are confused. -/
theorem canonical_eq_iff_value_eq_iff (m n : Number) :
    (m.canonical = n.canonical ↔ m.value = n.value) ↔ ¬Confused m n := by
  cases m with
  | integer j =>
    cases n with
    | integer k =>
      have hvalue : (integer j).value = (integer k).value ↔ j = k := Rat.intCast_inj
      rw [hvalue]
      exact iff_of_true ⟨Text.intText_inj, congrArg Text.intText⟩ id
    | float y => exact canonical_eq_iff_integer_float j y
  | float x =>
    cases n with
    | integer k =>
      rw [eq_comm, @eq_comm _ (float x).value, confused_comm]
      exact canonical_eq_iff_integer_float k x
    | float y =>
      rw [value_eq_iff]
      exact iff_of_true (canonical_float_eq_iff x y) id

/-- The floating-point number `2 ^ 63`. -/
def twoPow63 : Finite where
  negative := false
  units := 2 ^ 63 * one
  representable := ⟨by decide +kernel, 1, 63 + 1074, by decide, by decide +kernel⟩

/-- The shortest digits of `2 ^ 63` with zeros behind them are those of another integer. So it is
kept apart from the integer of its value and taken together with that other one. -/
theorem canonical_twoPow63_not_iff_value :
    (integer 9223372036854775808).InRange ∧ (integer 9223372036854776000).InRange ∧
    ¬((integer 9223372036854775808).canonical = (float twoPow63).canonical ↔
      (integer 9223372036854775808).value = (float twoPow63).value) ∧
    ¬((integer 9223372036854776000).canonical = (float twoPow63).canonical ↔
      (integer 9223372036854776000).value = (float twoPow63).value) := by
  have hfloat : (float twoPow63).canonical = (integer 9223372036854776000).canonical := by
    decide +kernel
  have hvalue : (integer 9223372036854775808).value = (float twoPow63).value :=
    (value_eq_iff _ _).mpr (by decide +kernel)
  refine ⟨by simp [InRange], by simp [InRange], ?_, ?_⟩
  · intro hiff
    have htext := (hiff.mpr hvalue).trans hfloat
    exact absurd (Text.intText_inj htext) (by decide)
  · intro hiff
    have heq := (hiff.mp hfloat.symm).trans hvalue.symm
    exact absurd (Rat.intCast_inj.mp heq) (by decide)

end Number

end Rollup
