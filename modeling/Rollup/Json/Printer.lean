import Rollup.Value.Basic
import Rollup.Json.Quoted

/-!
# Writing JSON text

`write` puts a value on one line without spaces. `writePretty` gives every item and every member a
line of its own and indents by two spaces a level; an empty container stays on one line.
-/

namespace Rollup.Json

mutual

/-- The text of a value without spaces. -/
def write : Value → List Char
  | .null => "null".toList
  | .bool flag => if flag then "true".toList else "false".toList
  | .number n => n.text .json
  | .string text => quote text.toList
  | .array items => '[' :: writeItems items ++ [']']
  | .object members => '\x7b' :: writeMembers members ++ ['\x7d']

/-- The texts of items, separated by commas. -/
def writeItems : List Value → List Char
  | [] => []
  | item :: items => write item ++ if items.isEmpty then [] else ',' :: writeItems items

/-- The texts of members, separated by commas. -/
def writeMembers : List (String × Value) → List Char
  | [] => []
  | (key, value) :: members =>
    quote key.toList ++ ':' :: write value ++
      if members.isEmpty then [] else ',' :: writeMembers members

end

/-- The start of a line at a level of nesting. -/
def newLine (level : Nat) : List Char :=
  '\n' :: List.replicate (2 * level) ' '

mutual

/-- The text of a value on lines of its own, at a level of nesting. -/
def writeIndented (level : Nat) : Value → List Char
  | .array items =>
    if items.isEmpty then ['[', ']']
    else '[' :: writeItemLines (level + 1) items ++ newLine level ++ [']']
  | .object members =>
    if members.isEmpty then ['\x7b', '\x7d']
    else '\x7b' :: writeMemberLines (level + 1) members ++ newLine level ++ ['\x7d']
  | value => write value

/-- The lines of items. -/
def writeItemLines (level : Nat) : List Value → List Char
  | [] => []
  | item :: items =>
    newLine level ++ writeIndented level item ++
      if items.isEmpty then [] else ',' :: writeItemLines level items

/-- The lines of members. -/
def writeMemberLines (level : Nat) : List (String × Value) → List Char
  | [] => []
  | (key, value) :: members =>
    newLine level ++ quote key.toList ++ ':' :: ' ' :: writeIndented level value ++
      if members.isEmpty then [] else ',' :: writeMemberLines level members

end

/-- The text of a value on one line. -/
def compact (value : Value) : String :=
  String.ofList (write value)

/-- The text of a value over several lines. -/
def writePretty (value : Value) : String :=
  String.ofList (writeIndented 0 value)

end Rollup.Json
