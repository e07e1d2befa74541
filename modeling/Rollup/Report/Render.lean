import Rollup.Report.Table
import Rollup.Yaml.Printer

/-!
# Output formats

A result is shown as a table, or as one value in JSON or in YAML.
-/

namespace Rollup

/-- A format of output. -/
inductive OutputFormat where
  /-- A table of the records. -/
  | table
  /-- Indented JSON text. -/
  | json
  /-- YAML text. -/
  | yaml
deriving DecidableEq

namespace OutputFormat

/-- All formats. -/
def all : List OutputFormat := [table, json, yaml]

/-- The name of a format. -/
def name : OutputFormat → String
  | table => "table"
  | json => "json"
  | yaml => "yaml"

/-- The format with a name. -/
def ofName? (name : String) : Option OutputFormat :=
  all.find? fun format => format.name = name

end OutputFormat

/-- The text of a result. -/
def render (result : EvalResult) : OutputFormat → String
  | .table => renderTable result
  | .json => Json.writePretty result.toValue
  | .yaml => Yaml.write result.toValue

end Rollup
