import Rollup.Binary64.Basic
import Rollup.Text.Digits

/-!
# Decimal numbers and their nearest floating-point numbers

A decimal number is a natural number of digits times a power of ten. `Decimal.toBinary64` rounds it
to the nearest floating-point number, and `Binary64.ofText?` reads the usual decimal spellings.
-/

namespace Rollup

/-- The decimal number `digits * 10 ^ exponent`, with a sign. -/
structure Decimal where
  /-- Whether the sign is a minus. -/
  negative : Bool
  /-- The significant digits. -/
  digits : Nat
  /-- The power of ten that they are multiplied with. -/
  exponent : Int
deriving DecidableEq

namespace Decimal

/--
The nearest floating-point number. Exponents far outside the format are answered without computing
their power of ten: above 400 any digit overflows, and `10 ^ e ≤ 2 ^ (3 * e)` for negative `e` shows
the underflow.
-/
def toBinary64 (d : Decimal) : Binary64 :=
  if d.digits = 0 then Binary64.ofRatio d.negative 0 1
  else if 400 < d.exponent then .infinite d.negative
  else if (d.digits.log2 : Int) + 1 + 3 * d.exponent < -1080 then Binary64.ofRatio d.negative 0 1
  else if 0 ≤ d.exponent then
    Binary64.ofRatio d.negative (d.digits * 10 ^ d.exponent.toNat * Binary64.one) 1
  else Binary64.ofRatio d.negative (d.digits * Binary64.one) (10 ^ (-d.exponent).toNat)

/-- Reads an exponent, if there is one: `e` in either case, an optional sign, and at least one
digit. -/
def readExponent? : List Char → Option (Option Int × List Char)
  | [] => some (none, [])
  | c :: rest =>
    if c = 'e' ∨ c = 'E' then
      let (negative, rest) := Text.readSign rest
      let digits := rest.takeWhile Char.isDigit
      if digits.isEmpty then none
      else
        let size : Int := Text.digitsValue digits
        some (some (if negative then -size else size), rest.dropWhile Char.isDigit)
    else some (none, c :: rest)

theorem length_readExponent?_le {text : List Char} {exponent : Option Int} {rest : List Char}
    (h : readExponent? text = some (exponent, rest)) : rest.length ≤ text.length := by
  unfold readExponent? at h
  split at h
  · simp_all
  · next c tail =>
    have hsign := Text.length_readSign_le tail
    have hdrop := (List.dropWhile_sublist Char.isDigit (l := (Text.readSign tail).2)).length_le
    split at h
    · simp only [Option.ite_none_left_eq_some, Option.some.injEq, Prod.mk.injEq] at h
      simp only [← h.2.2, List.length_cons]
      omega
    · simp only [Option.some.injEq, Prod.mk.injEq] at h
      simp [← h.2]

/-- Reads digits with at most one point among or beside them, and an optional exponent. -/
def ofText? (negative : Bool) (text : List Char) : Option Decimal :=
  let whole := text.takeWhile Char.isDigit
  let rest := text.dropWhile Char.isDigit
  let (fraction, rest) :=
    match rest with
    | '.' :: rest => (rest.takeWhile Char.isDigit, rest.dropWhile Char.isDigit)
    | rest => ([], rest)
  if whole.isEmpty && fraction.isEmpty then none
  else
    match readExponent? rest with
    | some (exponent, []) =>
      some ⟨negative, Text.digitsValue (whole ++ fraction), exponent.getD 0 - fraction.length⟩
    | _ => none

end Decimal

namespace Binary64

/--
Reads a number: an optional sign, then `inf`, `infinity` or `nan` in either case, or decimal digits
with an optional point and an optional exponent.
-/
def ofText? (text : List Char) : Option Binary64 :=
  let (negative, body) := Text.readSign text
  let word := body.map Char.toLower
  if word = "inf".toList ∨ word = "infinity".toList then some (infinite negative)
  else if word = "nan".toList then some nan
  else (Decimal.ofText? negative body).map Decimal.toBinary64

end Binary64

end Rollup
