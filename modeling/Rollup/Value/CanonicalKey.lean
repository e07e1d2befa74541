import Rollup.Value.Basic
import Rollup.Json.Quoted

/-!
# Canonical keys

The canonical key of a tuple of values is a text that two tuples share exactly if grouping puts them
into one bucket. Every value is tagged with its kind, which keeps `1` and `"1"` apart, and the
spelling of a number does not tell an integer from a floating-point number of the same safe integral
value.
-/

namespace Rollup

/-- The spelling of a number in a canonical key. -/
def Number.canonical : Number → List Char
  | integer n => Text.intText n
  | float x =>
    match safeInteger? x with
    | some n => Text.intText n
    | none => NumberStyle.plain.finiteText x

namespace Value

mutual

/-- The spelling of a value in a canonical key. -/
def canonical : Value → List Char
  | null => ['n']
  | bool flag => ['b', ':', if flag then '1' else '0']
  | number n => 'd' :: ':' :: n.canonical
  | string text => 's' :: ':' :: Json.quote text.toList
  | array items => '[' :: canonicalItems items ++ [']']
  | object members => '\x7b' :: canonicalMembers members ++ ['\x7d']

/-- The spellings of items, separated by commas. -/
def canonicalItems : List Value → List Char
  | [] => []
  | item :: items =>
    canonical item ++ if items.isEmpty then [] else ',' :: canonicalItems items

/-- The spellings of members, separated by commas. -/
def canonicalMembers : List (String × Value) → List Char
  | [] => []
  | (key, value) :: members =>
    Json.quote key.toList ++ ':' :: canonical value ++
      if members.isEmpty then [] else ',' :: canonicalMembers members

end

/-- The canonical key of a tuple of values. -/
def canonicalKey (values : List Value) : String :=
  String.ofList ('[' :: canonicalItems values ++ [']'])

end Value

end Rollup
