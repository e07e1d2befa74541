import Rollup.Aggregate.Evaluation
import Rollup.Documents.Error
import Rollup.Json.Reader
import Rollup.Text.Blank
import Rollup.Text.Split
import Rollup.Yaml.Reader

/-!
# Reading documents

A file holds a JSON array, a JSON text per line, or a YAML sequence, as the extension of its name
says. Standard input holds a JSON array, or else JSON lines; if it is neither, the error is that of
the array. Every item must be a mapping.
-/

namespace Rollup

/-- Where a text comes from. -/
inductive Source where
  /-- Standard input. -/
  | standardInput
  /-- A file. -/
  | file (name : String)
deriving DecidableEq

namespace Source

/-- The source that an argument names: a dash is standard input. -/
def ofArgument (argument : String) : Source :=
  if argument = "-" then standardInput else file argument

/-- The name of a source in messages. -/
def name : Source → String
  | standardInput => "-"
  | file name => name

end Source

/-- The form of an input file. -/
inductive InputFormat where
  /-- One JSON text. -/
  | json
  /-- A JSON text on every line. -/
  | jsonLines
  /-- A YAML document. -/
  | yaml
deriving DecidableEq

/-- The extension of a file name: what follows its last point, if something stands before that
point. -/
def extension? (path : String) : Option String :=
  let name := ((path.toList.splitOn '/').filter fun part => !part.isEmpty).getLast?.getD []
  let parts := name.splitOn '.'
  if name = ['.', '.'] then none
  else
    match parts.reverse with
    | last :: before :: more =>
      if more.isEmpty && before.isEmpty then none else some (String.ofList last)
    | _ => none

/-- The format that the extension of a name stands for, in either case. -/
def InputFormat.ofName (name : String) : InputFormat :=
  match (extension? name).map fun extension =>
    String.ofList (extension.toList.map Char.toLower) with
  | some "yaml" | some "yml" => yaml
  | some "jsonl" | some "ndjson" => jsonLines
  | _ => json

/-- The items of a value that must be a sequence. -/
def sequenceItems (name : String) : Value → Except InputError (List Value)
  | .array items => .ok items
  | _ => .error (.notASequence name)

/-- Reads a JSON array. -/
def readJsonArray (name content : String) : Except InputError (List Value) :=
  match Json.readNormal? content with
  | some value => sequenceItems name value
  | none => .error (.json name "the text is not valid JSON")

/-- Reads one line of JSON, given its position. -/
def readJsonLine (name : String) (line : List Char × Nat) : Except InputError Value :=
  match Json.readNormal? (String.ofList line.1) with
  | some value => .ok value
  | none => .error (.jsonLine name (line.2 + 1) "the line is not valid JSON")

/-- Reads a JSON text per line; blank lines are passed over but counted. -/
def readJsonLines (name content : String) : Except InputError (List Value) :=
  let lines := (Text.lines content.toList).zipIdx.filter fun (line, _) => !line.all Text.isBlank
  lines.mapM (readJsonLine name)

/-- Reads a YAML sequence. -/
def readYamlSequence (name content : String) : Except InputError (List Value) :=
  match Yaml.readNormal? content with
  | some value => sequenceItems name value
  | none => .error (.yaml name "the text is not valid YAML")

/-- Reads the items of a source from its text. -/
def readItems (source : Source) (content : String) : Except InputError (List Value) :=
  match source with
  | .standardInput =>
    match readJsonArray source.name content with
    | .ok items => .ok items
    | .error error => (readJsonLines source.name content).mapError fun _ => error
  | .file name =>
    match InputFormat.ofName name with
    | .json => readJsonArray name content
    | .jsonLines => readJsonLines name content
    | .yaml => readYamlSequence name content

/-- The document that an item is, given its position. -/
def readDocument (name : String) (item : Value × Nat) : Except InputError Document :=
  (Document.ofValue item.1).mapError fun _ => .notAMapping name item.2

/-- Reads the documents of a source from its text. -/
def readDocuments (source : Source) (content : String) : Except InputError (List Document) := do
  let items ← readItems source content
  items.zipIdx.mapM (readDocument source.name)

end Rollup
