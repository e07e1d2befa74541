import Rollup.Command.Arguments
import Rollup.Command.Error
import Rollup.Documents.Reading
import Rollup.Spec.Compact
import Rollup.Spec.Json
import Rollup.Spec.Yaml

/-!
# Running the command

A run reads its arguments, then the spec, then the documents, and writes the result. It is told how
to read a source, so that it does not depend on where texts come from.
-/

namespace Rollup

/-- The version line. -/
def versionText : String := "docagg 0.1.0\n"

/-- The help text. -/
def helpText : String :=
  "Group documents and compute per-field statistics in memory\n\n" ++
  "Usage: docagg [OPTIONS] --docs <FILE>\n\n" ++
  "Options:\n" ++
  "  -o, --output <OUTPUT>     [default: table] [possible values: table, json, yaml]\n" ++
  "  -d, --docs <FILE>         Documents file: JSON array, JSON lines (.jsonl) or YAML " ++
  "sequence; `-` for stdin\n" ++
  "      --spec <FILE>         Aggregate spec file (JSON or YAML)\n" ++
  "  -g, --group-by <CLAUSE>   Group clause: FIELD, FIELD:interval=N[:base=N], " ++
  "FIELD:ranges=[A]..[B],...\n" ++
  "  -s, --stat <FIELD=STATS>  Statistics for a field: FIELD=count,sum,avg,min,max\n" ++
  "  -c, --count               Count documents per bucket\n" ++
  "      --sort <PATH>         Sort results by a record path; prefix with `-` for descending\n" ++
  "      --skip <N>            [default: 0]\n" ++
  "      --limit <N>           Maximum number of results; 0 means no limit\n" ++
  "  -t, --total               Report the number of buckets (or documents) before skip/limit\n" ++
  "  -h, --help                Print help\n" ++
  "  -V, --version             Print version\n\n" ++
  "Examples:\n" ++
  "  docagg --docs animals.json --group-by animalType --stat age=avg,max --count\n" ++
  "  docagg --docs animals.yaml --spec aggregate.yaml --sort=-total --limit 3 -o json\n"

/-- The spec in a source: YAML if its name says so, and JSON otherwise. -/
def specOfContent (source : Source) (content : String) : Except SpecError Spec :=
  match InputFormat.ofName source.name with
  | .yaml => Spec.ofYamlText content
  | .json | .jsonLines => Spec.ofJsonText content

/-- The options that arguments give. -/
def Arguments.options (arguments : Arguments) : EvalOptions where
  sort := arguments.sort.map SortKey.ofText
  skip := arguments.skip.getD 0
  limit := arguments.limit
  total := arguments.total

/-- The result of an evaluation as it is written. -/
def showResult (arguments : Arguments) (spec : Spec) (documents : List Document) :
    Except CommandError String :=
  match evaluate documents spec arguments.options with
  | .ok result => .ok (render result (arguments.output.getD .table) ++ "\n")
  | .error error => .error (.evaluation error)

section

variable {m : Type → Type} [Monad m]

/-- Reads a source and what its text says. -/
def load {α : Type} (read : Source → m (Except String String)) (source : Source)
    (use : String → Except CommandError α) : m (Except CommandError α) := do
  match ← read source with
  | .ok content => return use content
  | .error detail => return .error (.input (.read source.name detail))

/-- Loads the documents of a source. -/
def loadDocuments (read : Source → m (Except String String)) (source : Source) :
    m (Except CommandError (List Document)) :=
  load read source fun content => (readDocuments source content).mapError .input

/-- Loads the spec of a source. -/
def loadSpec (read : Source → m (Except String String)) (source : Source) :
    m (Except CommandError Spec) :=
  load read source fun content => (specOfContent source content).mapError .spec

/-- The spec that arguments give: that of a file, or one from inline clauses and statistics. -/
def Arguments.buildSpec (read : Source → m (Except String String)) (arguments : Arguments) :
    m (Except CommandError Spec) :=
  match arguments.spec with
  | some file => loadSpec read (.ofArgument file)
  | none =>
    return (Spec.ofArguments arguments.groupBy arguments.stats arguments.count).mapError .spec

/-- Does what is asked for, and answers with the output. -/
def Invocation.run (read : Source → m (Except String String)) :
    Invocation → m (Except CommandError String)
  | .help => return .ok helpText
  | .version => return .ok versionText
  | .evaluate docs arguments => do
    match ← arguments.buildSpec read with
    | .error error => return .error error
    | .ok spec =>
      match ← loadDocuments read (.ofArgument docs) with
      | .error error => return .error error
      | .ok documents => return showResult arguments spec documents

/-- Runs the command on its arguments, and answers with the output. -/
def runCommand (read : Source → m (Except String String)) (arguments : List String) :
    m (Except CommandError String) :=
  match readArguments arguments with
  | .ok invocation => invocation.run read
  | .error detail => return .error (.invalidArguments detail)

end

end Rollup
