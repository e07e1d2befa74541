import Rollup.Binary64.Shortest

/-!
# Texts of floating-point numbers

A number is written with its shortest digits. What the notations differ in is a `NumberStyle`: which
positions of the decimal point are written positionally, how a whole number and an exponent are
marked, and which way a tie between two shortest candidates goes.
-/

namespace Rollup

/-- The decisions of a notation for floating-point numbers. -/
structure NumberStyle where
  /-- The positions of the decimal point that are written positionally; the others get an
  exponent. -/
  isPositional : Int → Bool
  /-- What a whole number ends in when it is written positionally. -/
  wholeMark : String
  /-- The sign of a positive exponent. -/
  exponentPlus : String
  /-- Which of two shortest candidates is taken for a value halfway between them. -/
  tie : Tie

namespace NumberStyle

/-- Digits with the decimal point after the first `point` of them. -/
def positional (style : NumberStyle) (digits : List Char) (point : Int) : List Char :=
  if point ≤ 0 then '0' :: '.' :: List.replicate (-point).toNat '0' ++ digits
  else if digits.length ≤ point.toNat then
    digits ++ List.replicate (point.toNat - digits.length) '0' ++ style.wholeMark.toList
  else digits.take point.toNat ++ '.' :: digits.drop point.toNat

/-- Digits with the decimal point after the first of them, and an exponent. -/
def scientific (style : NumberStyle) (digits : List Char) (point : Int) : List Char :=
  let fraction := digits.drop 1
  let exponent := point - 1
  digits.take 1 ++ (if fraction.isEmpty then [] else '.' :: fraction) ++ 'e' ::
    ((if exponent < 0 then [] else style.exponentPlus.toList) ++ Text.intText exponent)

/-- The text of a finite number. -/
def finiteText (style : NumberStyle) (x : Binary64.Finite) : List Char :=
  let (significant, exponent) := x.shortest style.tie
  let digits := Text.natDigits significant
  let point := exponent + digits.length
  (if x.negative then ['-'] else []) ++
    if style.isPositional point then style.positional digits point
    else style.scientific digits point

/-- In JSON a number of up to sixteen whole digits is positional and keeps a fraction digit. -/
def json : NumberStyle where
  isPositional point := -5 < point && point ≤ 16
  wholeMark := ".0"
  exponentPlus := "+"
  tie := .even

/-- YAML text differs from JSON text in leaving out the sign of a positive exponent. -/
def yaml : NumberStyle :=
  { json with exponentPlus := "" }

/-- In messages and keys a number never has an exponent, and a whole number has no point. -/
def plain : NumberStyle where
  isPositional _ := true
  wholeMark := ""
  exponentPlus := ""
  tie := .away

end NumberStyle

/-- The text of a floating-point number in messages and keys. -/
def Binary64.plainText : Binary64 → List Char
  | .finite x => NumberStyle.plain.finiteText x
  | .infinite negative => if negative then "-inf".toList else "inf".toList
  | .nan => "NaN".toList

end Rollup
