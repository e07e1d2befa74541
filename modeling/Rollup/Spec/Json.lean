import Rollup.Spec.Decode
import Rollup.Json.Reader

/-!
# Specs in JSON

A spec is an object of its sections, or an array of them in order. `Spec.ofJsonValue` reads it from
a value and `Spec.ofJsonText` from a text, in which a repeated key of the spec, of a clause or of a
range is refused.
-/

namespace Rollup.Spec

/-- The named statistics section: an object with a member per field. -/
def statsMembers? : Option Term → Option (List (String × Term))
  | none => some []
  | some (.record members) => members.mapM fun
    | (.name field, term) => some (field, term)
    | _ => none
  | some _ => none

/-- The total section: a truth value, false if it is missing. -/
def readTotal? : Option Term → Option Bool
  | none => some false
  | some term => term.toBool?

/-- The sections that a term has. -/
def sectionsOfTerm? (term : Term) : Option Sections := do
  match ← term.slots? sectionNames with
  | [groupBy, stats, total] => readSections? groupBy (← statsMembers? stats) (← readTotal? total)
  | _ => none

/-- The spec that a value spells. -/
def ofJsonValue (value : Value) : Except SpecError Spec :=
  ofSections "the value does not have the form of a spec" (sectionsOfTerm? (.ofValue value))

/-- The spec that a text spells. -/
def ofJsonText (text : String) : Except SpecError Spec :=
  match Json.read? text with
  | some value => ofJsonValue value
  | none => .error (.malformed "the text is not valid JSON")

end Rollup.Spec
