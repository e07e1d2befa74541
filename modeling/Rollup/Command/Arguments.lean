import Rollup.Report.Render

/-!
# Command-line arguments

Arguments are read one after another. An option takes its value from the rest of its own argument or
from the next one, which must then not look like an option unless the option allows it. Help and
version act as soon as they are met, all other rules at the end.
-/

namespace Rollup

/-- An option that takes a value. -/
inductive ValueOption where
  /-- The format of the output. -/
  | output
  /-- The file of documents. -/
  | docs
  /-- The file of the spec. -/
  | spec
  /-- A clause. -/
  | groupBy
  /-- A statistics entry. -/
  | stat
  /-- A path to sort by. -/
  | sort
  /-- How many results are left out. -/
  | skip
  /-- How many results are kept. -/
  | limit
deriving DecidableEq

/-- An option without a value. -/
inductive Flag where
  /-- Documents are counted. -/
  | count
  /-- The number of results is reported. -/
  | total
  /-- Help is asked for. -/
  | help
  /-- The version is asked for. -/
  | version
deriving DecidableEq

/-- What the arguments say. -/
structure Arguments where
  /-- The format of the output. -/
  output : Option OutputFormat := none
  /-- The file of documents. -/
  docs : Option String := none
  /-- The file of the spec. -/
  spec : Option String := none
  /-- The clauses. -/
  groupBy : List String := []
  /-- The statistics entries. -/
  stats : List String := []
  /-- The paths to sort by. -/
  sort : List String := []
  /-- How many results are left out. -/
  skip : Option Nat := none
  /-- How many results are kept. -/
  limit : Option Nat := none
  /-- Whether documents are counted. -/
  count : Bool := false
  /-- Whether the number of results is reported. -/
  total : Bool := false

/-- What is to be done. -/
inductive Invocation where
  /-- Help is shown. -/
  | help
  /-- The version is shown. -/
  | version
  /-- Documents are evaluated. -/
  | evaluate (docs : String) (arguments : Arguments)

/-- How far the arguments are read. -/
inductive Progress where
  /-- An option may follow. -/
  | ready (arguments : Arguments)
  /-- The value of an option must follow. -/
  | awaiting (arguments : Arguments) (option : ValueOption)
  /-- Nothing may follow. -/
  | closed (arguments : Arguments)
  /-- It is known what is to be done. -/
  | decided (invocation : Invocation)

/-- An option of either kind. -/
abbrev AnyOption := ValueOption ⊕ Flag

/-- The option with a long name. -/
def optionOfLong? : String → Option AnyOption
  | "output" => some (.inl .output)
  | "docs" => some (.inl .docs)
  | "spec" => some (.inl .spec)
  | "group-by" => some (.inl .groupBy)
  | "stat" => some (.inl .stat)
  | "sort" => some (.inl .sort)
  | "skip" => some (.inl .skip)
  | "limit" => some (.inl .limit)
  | "count" => some (.inr .count)
  | "total" => some (.inr .total)
  | "help" => some (.inr .help)
  | "version" => some (.inr .version)
  | _ => none

/-- The option with a letter. -/
def optionOfLetter? : Char → Option AnyOption
  | 'o' => some (.inl .output)
  | 'd' => some (.inl .docs)
  | 'g' => some (.inl .groupBy)
  | 's' => some (.inl .stat)
  | 'c' => some (.inr .count)
  | 't' => some (.inr .total)
  | 'h' => some (.inr .help)
  | 'V' => some (.inr .version)
  | _ => none

/-- Only paths to sort by may look like options. -/
def ValueOption.allowsDash (option : ValueOption) : Bool :=
  option = .sort

/-- An argument looks like an option: something follows its first dash. -/
def looksLikeOption (argument : String) : Bool :=
  match argument.toList with
  | '-' :: _ :: _ => true
  | _ => false

/-- The count that a text spells: decimal digits, with or without a plus sign, within 64 bits. -/
def readCount? (text : String) : Option Nat := do
  let n ← Text.readNat? text.toList
  if n < 2 ^ 64 then some n else none

/-- Sets a value that may be given once. -/
def setOnce {α : Type} (old : Option α) (read : Option α) : Except String (Option α) :=
  match old, read with
  | some _, _ => .error "an option is given twice"
  | none, none => .error "the value of an option is invalid"
  | none, some value => .ok (some value)

/-- A text that is not empty. -/
def nonEmpty? (text : String) : Option String :=
  if text = "" then none else some text

namespace Arguments

/-- Takes the value of an option. -/
def setValue (arguments : Arguments) (option : ValueOption) (value : String) :
    Except String Arguments :=
  match option with
  | .output => do
    let format := OutputFormat.ofName? (String.ofList (value.toList.map Char.toLower))
    return { arguments with output := ← setOnce arguments.output format }
  | .docs => do return { arguments with docs := ← setOnce arguments.docs (nonEmpty? value) }
  | .spec => do return { arguments with spec := ← setOnce arguments.spec (nonEmpty? value) }
  | .skip => do return { arguments with skip := ← setOnce arguments.skip (readCount? value) }
  | .limit => do return { arguments with limit := ← setOnce arguments.limit (readCount? value) }
  | .groupBy => .ok { arguments with groupBy := arguments.groupBy ++ [value] }
  | .stat => .ok { arguments with stats := arguments.stats ++ [value] }
  | .sort => .ok { arguments with sort := arguments.sort ++ [value] }

/-- Raises a flag. -/
def raise (arguments : Arguments) (flag : Flag) : Except String Progress :=
  match flag with
  | .help => .ok (.decided .help)
  | .version => .ok (.decided .version)
  | .count =>
    if arguments.count then .error "a flag is given twice"
    else .ok (.ready { arguments with count := true })
  | .total =>
    if arguments.total then .error "a flag is given twice"
    else .ok (.ready { arguments with total := true })

/-- Reads an option with a long name and the value attached to it, if there is one. -/
def readLong (arguments : Arguments) (name : String) (value : Option String) :
    Except String Progress :=
  match optionOfLong? name, value with
  | none, _ => .error s!"unexpected argument '--{name}'"
  | some (.inr flag), none => arguments.raise flag
  | some (.inr _), some _ => .error s!"'--{name}' takes no value"
  | some (.inl option), none => .ok (.awaiting arguments option)
  | some (.inl option), some value => do return .ready (← arguments.setValue option value)

/-- Reads options by their letters: flags, and at last an option with the rest as its value. -/
def readLetters (arguments : Arguments) : List Char → Except String Progress
  | [] => .ok (.ready arguments)
  | letter :: rest =>
    match optionOfLetter? letter with
    | none => .error s!"unexpected argument '-{letter}'"
    | some (.inr flag) => do
      match ← arguments.raise flag with
      | .ready arguments => readLetters arguments rest
      | decided => return decided
    | some (.inl option) =>
      match rest with
      | [] => .ok (.awaiting arguments option)
      | '=' :: value => do return .ready (← arguments.setValue option (String.ofList value))
      | value => do return .ready (← arguments.setValue option (String.ofList value))

/-- Reads an argument where an option may stand. -/
def readOption (arguments : Arguments) (argument : String) : Except String Progress :=
  match argument.toList with
  | ['-', '-'] => .ok (.closed arguments)
  | '-' :: '-' :: long =>
    match Text.cut? ['='] long with
    | some (name, value) => arguments.readLong (String.ofList name) (some (String.ofList value))
    | none => arguments.readLong (String.ofList long) none
  | '-' :: letter :: letters => arguments.readLetters (letter :: letters)
  | _ => .error s!"unexpected argument '{argument}'"

/-- What is to be done when all arguments are read. -/
def finish (arguments : Arguments) : Except String Invocation :=
  let inlineSpec := !arguments.groupBy.isEmpty || !arguments.stats.isEmpty || arguments.count
  match arguments.docs with
  | none => .error "a file of documents is required"
  | some docs =>
    if arguments.spec.isSome && inlineSpec then
      .error "'--spec' cannot be used with '--group-by', '--stat' or '--count'"
    else .ok (.evaluate docs arguments)

end Arguments

namespace Progress

/-- Reads one more argument. -/
def step : Progress → String → Except String Progress
  | ready arguments, argument => arguments.readOption argument
  | awaiting arguments option, argument =>
    if option.allowsDash || !looksLikeOption argument then do
      return ready (← arguments.setValue option argument)
    else .error "an option has no value"
  | closed _, argument => .error s!"unexpected argument '{argument}'"
  | decided invocation, _ => .ok (decided invocation)

/-- What is to be done when no argument is left. -/
def finish : Progress → Except String Invocation
  | ready arguments | closed arguments => arguments.finish
  | awaiting _ _ => .error "an option has no value"
  | decided invocation => .ok invocation

end Progress

/-- What the arguments of the command ask for. -/
def readArguments (arguments : List String) : Except String Invocation := do
  let progress ← arguments.foldlM Progress.step (.ready {})
  progress.finish

end Rollup
