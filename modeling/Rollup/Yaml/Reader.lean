import Rollup.Value.Basic
import Rollup.Yaml.Node
import Rollup.Yaml.Plain

/-!
# Reading values from YAML text

The keys of a mapping are the texts of its scalars, whatever they mean; a sequence or a mapping
cannot be a key. A number that is not finite becomes null, and an integer that no word of 64 bits
holds is refused.
-/

namespace Rollup.Yaml

/-- The value of a scalar. -/
def scalarValue? (text : String) (plain : Bool) : Option Value :=
  if !plain then some (.string text)
  else
    match Plain.ofText text.toList with
    | .null => some .null
    | .bool flag => some (.bool flag)
    | .integer n => some (.int n)
    | .wideInteger _ => none
    | .float (.finite x) => some (.number (.float x))
    | .float _ => some .null
    | .string => some (.string text)

namespace Node

/-- The text of a scalar. -/
def text? : Node → Option String
  | scalar text _ => some text
  | _ => none

mutual

/-- The value of a node, the members of a mapping in their order. -/
def toValue? : Node → Option Value
  | scalar text plain => scalarValue? text plain
  | sequence items => (toItems? items).map .array
  | mapping entries => (toMembers? entries).map .object

/-- The values of some items. -/
def toItems? : List Node → Option (List Value)
  | [] => some []
  | item :: items => do return (← toValue? item) :: (← toItems? items)

/-- The members of a mapping. -/
def toMembers? : List (Node × Node) → Option (List (String × Value))
  | [] => some []
  | (key, value) :: entries => do
    return (← key.text?, ← toValue? value) :: (← toMembers? entries)

end

end Node

/-- The value that a text spells, in normal form. -/
def readNormal? (text : String) : Option Value := do
  let node ← Node.ofText? text
  let value ← node.toValue?
  return value.normalize

end Rollup.Yaml
