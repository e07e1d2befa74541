/-!
# What can be wrong with input

An `InputError` is a cause; `InputError.message` words it. The detail of an error is what the reader
of the file or of its text says about it.
-/

namespace Rollup

/-- Why documents or a spec cannot be loaded. -/
inductive InputError where
  /-- A file cannot be read. -/
  | read (name detail : String)
  /-- A text is not JSON. -/
  | json (name detail : String)
  /-- A line is not JSON; lines are counted from one. -/
  | jsonLine (name : String) (line : Nat) (detail : String)
  /-- A text is not YAML. -/
  | yaml (name detail : String)
  /-- A text is not a sequence. -/
  | notASequence (name : String)
  /-- The item at a position is not a mapping. -/
  | notAMapping (name : String) (index : Nat)
deriving DecidableEq

namespace InputError

/-- The wording of an error. -/
def message : InputError → String
  | read name detail => s!"failed to read '{name}': {detail}"
  | json name detail => s!"failed to parse json in '{name}': {detail}"
  | jsonLine name line detail => s!"failed to parse json line {line} in '{name}': {detail}"
  | yaml name detail => s!"failed to parse yaml in '{name}': {detail}"
  | notASequence name => s!"'{name}' must contain a sequence of documents"
  | notAMapping name index => s!"document {index} in '{name}' is not a mapping"

/-- What to do about an error. -/
def tip (_ : InputError) : String :=
  "Tip: documents are a JSON array, JSON lines (.jsonl) or a YAML sequence of mappings."

end InputError

end Rollup
