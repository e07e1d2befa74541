import Rollup.Spec.Decode
import Rollup.Yaml.Reader

/-!
# Specs in YAML

A spec is a mapping of its sections. The names of sections and of fields with statistics are read
from the texts of their scalars, whatever they mean; inside a section a plain scalar counts as what
it means. An empty document and an empty statistics section say nothing.
-/

namespace Rollup.Spec

open Yaml (Node Plain)

/-- The term of a scalar. -/
def scalarTerm? (text : String) (plain : Bool) : Option Term :=
  if !plain then some (.string text)
  else
    match Plain.ofText text.toList with
    | .null => some .null
    | .bool flag => some (.bool flag)
    | .integer n => some (.number (.integer n))
    | .wideInteger _ => none
    | .float (.finite x) => some (.number (.float x))
    | .float x => some (.nonfinite x)
    | .string => some (.string text)

/-- The label that a key is. -/
def labelOfNode? : Node → Option Label
  | .scalar text plain =>
    (scalarTerm? text plain).map fun
      | .string text => .name text
      | .number (.integer n) => if 0 ≤ n then .position n.toNat else .other
      | _ => .other
  | _ => none

mutual

/-- The term that a node spells. -/
def termOfNode? : Node → Option Term
  | .scalar text plain => scalarTerm? text plain
  | .sequence items => (termsOfItems? items).map .list
  | .mapping entries => (termsOfEntries? entries).map .record

/-- The terms of items. -/
def termsOfItems? : List Node → Option (List Term)
  | [] => some []
  | item :: items => do return (← termOfNode? item) :: (← termsOfItems? items)

/-- The terms of entries, labelled by their keys. -/
def termsOfEntries? : List (Node × Node) → Option (List (Label × Term))
  | [] => some []
  | (key, value) :: entries => do
    return (← labelOfNode? key, ← termOfNode? value) :: (← termsOfEntries? entries)

end

/-- The entries of a mapping, each under the text of its key. An absent node is a mapping without
entries. -/
def namedEntries? : Node → Option (List (String × Node))
  | .mapping entries => entries.mapM fun (key, value) => do return (← key.text?, value)
  | .scalar "" true => some []
  | _ => none

/-- The statistics section: a mapping with an entry per field. -/
def statsEntries? : Option Node → Option (List (String × Term))
  | none => some []
  | some node => do
    (← namedEntries? node).mapM fun (field, node) => do return (field, ← termOfNode? node)

/-- The total section: a truth value, false if it is missing. -/
def totalOfNode? : Option Node → Option Bool
  | none => some false
  | some node => do (← termOfNode? node).toBool?

/-- The sections that a document has. -/
def sectionsOfNode? (node : Node) : Option Sections := do
  let entries ← namedEntries? node
  match ← arrange? sectionNames (entries.map fun (name, node) => (Label.name name, node)) with
  | [groupBy, stats, total] =>
    readSections? (← groupBy.mapM termOfNode?) (← statsEntries? stats) (← totalOfNode? total)
  | _ => none

/-- The spec that a text spells. -/
def ofYamlText (text : String) : Except SpecError Spec :=
  match Node.ofText? text with
  | some node => ofSections "the document does not have the form of a spec" (sectionsOfNode? node)
  | none => .error (.malformed "the text is not valid YAML")

end Rollup.Spec
