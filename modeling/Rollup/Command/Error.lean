import Rollup.Aggregate.GroupKey
import Rollup.Documents.Error

/-!
# Errors of the command

Every failure of the command is shown as its cause, an empty line and a tip.
-/

namespace Rollup

/-- Why the command fails. -/
inductive CommandError where
  /-- The arguments are not understood. -/
  | invalidArguments (detail : String)
  /-- Documents or a spec file cannot be loaded. -/
  | input (cause : InputError)
  /-- The spec is refused. -/
  | spec (cause : SpecError)
  /-- The evaluation fails. -/
  | evaluation (cause : EvalError)
deriving DecidableEq

namespace CommandError

/-- The cause of an error, after the part of the work that it arose in. -/
def cause : CommandError → String
  | invalidArguments detail => s!"invalid args: {detail}"
  | input error => "input error: " ++ error.message
  | spec error => "spec error: " ++ error.message
  | evaluation error => "evaluation error: " ++ error.message

/-- What to do about an error. -/
def tip : CommandError → String
  | invalidArguments _ => "Tip: run `docagg --help` to see usage and examples."
  | input error => error.tip
  | spec error => error.tip
  | evaluation error => error.tip

/-- The text that an error is shown as. -/
def display (error : CommandError) : String :=
  error.cause ++ "\n\n" ++ error.tip

end CommandError

end Rollup
