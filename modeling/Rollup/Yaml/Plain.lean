import Rollup.Binary64.Decimal

/-!
# What plain scalars mean

A scalar without quotes may spell a null, a boolean or a number; everything else is a string.
Numbers are decimal integers without needless zeros in front, integers after `0x`, `0o` or `0b`, and
decimals that come out finite.
-/

namespace Rollup.Yaml

/-- The meaning of a plain scalar. -/
inductive Plain where
  /-- The absence of a value. -/
  | null
  /-- A truth value. -/
  | bool (flag : Bool)
  /-- An integer that a signed or an unsigned word of 64 bits holds. -/
  | integer (n : Int)
  /-- An integer that a word of 128 bits holds but none of 64. -/
  | wideInteger (n : Int)
  /-- A floating-point number. -/
  | float (x : Binary64)
  /-- Anything else. -/
  | string
deriving DecidableEq

/-- Digits with a zero in front, after an optional sign: these spell no number. -/
def isZeroPadded (text : List Char) : Bool :=
  match (Text.readSign text).2 with
  | '0' :: digits => !digits.isEmpty && digits.all Char.isDigit
  | _ => false

/-- The integer that a plain scalar spells. -/
def integer? (text : List Char) : Option Int :=
  let (negative, body) := Text.readSign text
  let magnitude :=
    match body with
    | '0' :: 'x' :: digits => Text.natIn? 16 digits
    | '0' :: 'o' :: digits => Text.natIn? 8 digits
    | '0' :: 'b' :: digits => Text.natIn? 2 digits
    | digits => if isZeroPadded digits then none else Text.natIn? 10 digits
  magnitude.map fun n => if negative then -(n : Int) else n

/-- The floating-point number that a plain scalar spells. The infinities and not-a-number start with
a point. -/
def float? (text : List Char) : Option Binary64 :=
  let (negative, body) := Text.readSign text
  if body ∈ [".inf".toList, ".Inf".toList, ".INF".toList] then some (.infinite negative)
  else if text ∈ [".nan".toList, ".NaN".toList, ".NAN".toList] then some .nan
  else if isZeroPadded text then none
  else
    match (Decimal.ofText? negative body).map Decimal.toBinary64 with
    | some (.finite x) => some (.finite x)
    | _ => none

/-- The meaning of a plain scalar. -/
def Plain.ofText (text : List Char) : Plain :=
  if text ∈ [[], "~".toList, "null".toList, "Null".toList, "NULL".toList] then .null
  else if text ∈ ["true".toList, "True".toList, "TRUE".toList] then .bool true
  else if text ∈ ["false".toList, "False".toList, "FALSE".toList] then .bool false
  else
    let asFloat := (float? text).elim Plain.string .float
    match integer? text with
    | some n =>
      if -2 ^ 63 ≤ n ∧ n < 2 ^ 64 then .integer n
      else if -2 ^ 127 ≤ n ∧ n < 2 ^ 128 then .wideInteger n
      else asFloat
    | none => asFloat

end Rollup.Yaml
