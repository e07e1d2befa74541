import Rollup.Yaml.Scalar

/-!
# Tokens of YAML text

`tokens?` cuts a text into tokens. Indentation becomes explicit: a block collection has a token for
its start and one for its end. That something was a key shows only at the colon after it, so the
lexer remembers where a key may have begun, one candidate per level of brackets, and puts the
missing tokens in there. A candidate lapses at the end of its line, and after 1024 characters.

Tags are not read.
-/

namespace Rollup.Yaml

/-- A token of YAML text. -/
inductive Token where
  /-- Three dashes at the start of a line. -/
  | documentStart
  /-- Three points at the start of a line. -/
  | documentEnd
  /-- A directive. -/
  | directive
  /-- A block sequence begins. -/
  | blockSequence
  /-- A block mapping begins. -/
  | blockMapping
  /-- A block collection ends. -/
  | blockEnd
  /-- An opening bracket. -/
  | openBracket
  /-- A closing bracket. -/
  | closeBracket
  /-- An opening brace. -/
  | openBrace
  /-- A closing brace. -/
  | closeBrace
  /-- A dash before an item. -/
  | entry
  /-- A comma. -/
  | comma
  /-- A key follows. -/
  | key
  /-- A value follows. -/
  | value
  /-- The name of a node. -/
  | anchor (name : String)
  /-- A reference to a named node. -/
  | alias (name : String)
  /-- A scalar, and whether it is plain. -/
  | scalar (text : String) (plain : Bool)
deriving DecidableEq

/-- A place where a key may have begun. -/
structure KeyCandidate where
  /-- The number of tokens before it. -/
  position : Nat
  /-- The symbol that it begins with. -/
  start : Symbol
  /-- Nothing but a key can begin there. -/
  required : Bool

/-- The state of the lexer between two tokens. -/
structure Lexer where
  /-- The symbols that are not read yet. -/
  rest : List Symbol
  /-- The number of symbols of the whole text, which bounds the steps of every loop. -/
  size : Nat
  /-- The tokens so far. -/
  tokens : Array Token := #[]
  /-- The column of the innermost block collection; minus one outside of all. -/
  indent : Int := -1
  /-- The columns of the block collections around it, the innermost first. -/
  indents : List Int := []
  /-- The candidate on each level of brackets, the innermost level first. -/
  candidates : List (Option KeyCandidate) := [none]
  /-- Whether a key may begin here. -/
  keyAllowed : Bool := true

namespace Lexer

/-- Whether some bracket or brace is open. -/
def inFlow (lexer : Lexer) : Bool :=
  1 < lexer.candidates.length

/-- The next symbol. -/
def next (lexer : Lexer) : Symbol :=
  lexer.rest.headD ⟨endMark, 0, 0, 0⟩

/-- The column of the next symbol. -/
def column (lexer : Lexer) : Int :=
  lexer.next.column

/-- Adds a token. -/
def push (lexer : Lexer) (token : Token) : Lexer :=
  { lexer with tokens := lexer.tokens.push token }

/-- Adds a token in front of all but the first `position` ones. -/
def insertAt (lexer : Lexer) (position : Nat) (token : Token) : Lexer :=
  { lexer with tokens := lexer.tokens.insertIdxIfInBounds position token }

/-- Passes over some symbols. -/
def skip (lexer : Lexer) (n : Nat) : Lexer :=
  { lexer with rest := lexer.rest.drop n }

/-- Says whether a key may begin here. -/
def allowKey (lexer : Lexer) (allowed : Bool) : Lexer :=
  { lexer with keyAllowed := allowed }

/-- Ends the block collections that are indented deeper than a column; inside brackets there are
none. -/
def unindent (lexer : Lexer) (column : Int) : Lexer :=
  if lexer.inFlow then lexer
  else
    let columns := lexer.indent :: lexer.indents
    let ended := (columns.takeWhile fun indent => column < indent).length
    let remaining := columns.drop ended
    { lexer with
      tokens := lexer.tokens ++ Array.replicate ended .blockEnd
      indent := remaining.headD (-1)
      indents := remaining.drop 1 }

/-- Begins a block collection at a column if it is indented deeper than the innermost one; its token
goes in front of all but the first `position` ones. -/
def indentTo (lexer : Lexer) (column : Int) (position : Nat) (token : Token) : Lexer :=
  if lexer.inFlow || column ≤ lexer.indent then lexer
  else
    { lexer.insertAt position token with
      indent := column
      indents := lexer.indent :: lexer.indents }

/-- Drops the candidate of the innermost level; a required one must not be dropped. -/
def dropCandidate? (lexer : Lexer) : Option Lexer :=
  match lexer.candidates with
  | some candidate :: others =>
    if candidate.required then none else some { lexer with candidates := none :: others }
  | _ => some lexer

/-- Remembers that a key may begin here. -/
def saveCandidate? (lexer : Lexer) : Option Lexer :=
  if lexer.keyAllowed then do
    let lexer ← lexer.dropCandidate?
    let required := !lexer.inFlow && lexer.indent == lexer.column
    return { lexer with
      candidates := some ⟨lexer.tokens.size, lexer.next, required⟩ :: lexer.candidates.drop 1 }
  else some lexer

/-- Whether a key that began at a candidate cannot reach to a symbol. -/
def lapsed (s : Symbol) (candidate : KeyCandidate) : Bool :=
  candidate.start.line < s.line || candidate.start.index + 1024 < s.index

/-- Drops the candidates that have lapsed; none of them may be required. -/
def dropLapsed? (lexer : Lexer) : Option Lexer :=
  let isLapsed := fun candidate : Option KeyCandidate => candidate.any (lapsed lexer.next)
  if lexer.candidates.any fun candidate =>
      isLapsed candidate && candidate.any KeyCandidate.required then
    none
  else
    some { lexer with
      candidates := lexer.candidates.map fun candidate =>
        if isLapsed candidate then none else candidate }

/-- Passes over blanks, comments and line breaks. A tab may not stand where a key may begin, except
inside brackets. -/
def skipGap (lexer : Lexer) : (fuel : Nat) → Lexer
  | 0 => lexer
  | fuel + 1 =>
    let blank := fun s : Symbol =>
      s.char == ' ' || ((lexer.inFlow || !lexer.keyAllowed) && s.char == '\t')
    let rest := lexer.rest.dropWhile blank
    let rest := if startsWith '#' rest then rest.dropWhile fun s => !s.endsLine else rest
    match rest with
    | s :: after =>
      if s.isBreak then
        skipGap { lexer with rest := after, keyAllowed := lexer.keyAllowed || !lexer.inFlow } fuel
      else { lexer with rest }
    | [] => { lexer with rest }

/-! ### Fetching tokens -/

/-- A bracket or brace opens. -/
def fetchOpen? (lexer : Lexer) (token : Token) : Option Lexer := do
  let lexer ← lexer.saveCandidate?
  return ({ lexer with candidates := none :: lexer.candidates }.allowKey true |>.push token).skip 1

/-- A bracket or brace closes. -/
def fetchClose? (lexer : Lexer) (token : Token) : Option Lexer := do
  let lexer ← lexer.dropCandidate?
  let candidates := if lexer.inFlow then lexer.candidates.drop 1 else lexer.candidates
  return ({ lexer with candidates }.allowKey false |>.push token).skip 1

/-- A comma. -/
def fetchComma? (lexer : Lexer) : Option Lexer := do
  let lexer ← lexer.dropCandidate?
  return (lexer.allowKey true |>.push .comma).skip 1

/-- A dash before an item; it begins a block sequence if it is indented deeper. -/
def fetchEntry? (lexer : Lexer) : Option Lexer :=
  if !lexer.inFlow && !lexer.keyAllowed then none
  else do
    let lexer ← (lexer.indentTo lexer.column lexer.tokens.size .blockSequence).dropCandidate?
    return (lexer.allowKey true |>.push .entry).skip 1

/-- A question mark before a key; it begins a block mapping if it is indented deeper. -/
def fetchKey? (lexer : Lexer) : Option Lexer :=
  if !lexer.inFlow && !lexer.keyAllowed then none
  else do
    let lexer ← (lexer.indentTo lexer.column lexer.tokens.size .blockMapping).dropCandidate?
    return (lexer.allowKey (!lexer.inFlow) |>.push .key).skip 1

/-- A colon before a value. If a key may have begun before, it has. -/
def fetchValue? (lexer : Lexer) : Option Lexer :=
  match lexer.candidates with
  | some candidate :: others =>
    let keyed := { lexer with candidates := none :: others }.insertAt candidate.position .key
    let lexer := keyed.indentTo candidate.start.column candidate.position .blockMapping
    some ((lexer.allowKey false |>.push .value).skip 1)
  | _ =>
    if !lexer.inFlow && !lexer.keyAllowed then none
    else
      let lexer := lexer.indentTo lexer.column lexer.tokens.size .blockMapping
      some ((lexer.allowKey (!lexer.inFlow) |>.push .value).skip 1)

/-- A character of a name. -/
def isNameChar (c : Char) : Bool :=
  c.isAlphanum || c == '_' || c == '-'

/-- The name of a node, or a reference to one. -/
def fetchName? (lexer : Lexer) (token : String → Token) : Option Lexer := do
  let lexer ← lexer.saveCandidate?
  let (name, rest) := (lexer.rest.drop 1).span fun s => isNameChar s.char
  let mayFollow := match rest with
    | s :: _ => s.endsWord || "?:,]\x7d%@`".toList.contains s.char
    | [] => true
  if name.isEmpty || !mayFollow then none
  else
    return ({ lexer with rest }.allowKey false).push
      (token (String.ofList (name.map Symbol.char)))

/-- A block scalar. -/
def fetchBlock? (lexer : Lexer) (literal : Bool) : Option Lexer := do
  let lexer ← lexer.dropCandidate?
  let (text, rest) ← readBlock? literal lexer.indent lexer.size (lexer.rest.drop 1)
  return ({ lexer with rest }.allowKey true).push (.scalar (String.ofList text) false)

/-- A quoted scalar. -/
def fetchQuoted? (lexer : Lexer) (quote : Char) : Option Lexer := do
  let lexer ← lexer.saveCandidate?
  let (text, rest) ← readQuoted? quote lexer.size (lexer.rest.drop 1)
  return ({ lexer with rest }.allowKey false).push (.scalar (String.ofList text) false)

/-- A plain scalar. A key may follow it on the next line. -/
def fetchPlain? (lexer : Lexer) : Option Lexer := do
  let lexer ← lexer.saveCandidate?
  let (text, broken, rest) ←
    readPlain? lexer.inFlow (lexer.indent + 1) lexer.size [] lexer.rest
  return ({ lexer with rest }.allowKey broken).push (.scalar (String.ofList text) true)

/-- A marker between documents. -/
def fetchMarker? (lexer : Lexer) (token : Token) : Option Lexer := do
  let lexer ← (lexer.unindent (-1)).dropCandidate?
  return (lexer.allowKey false |>.push token).skip 3

/-- Whether a line, its comment apart, names one of the versions that are read. -/
def isVersionDirective (line : List Char) : Bool :=
  let words := (line.takeWhile (· != '#')).splitOnP fun c => c == ' ' || c == '\t'
  let words := words.filter fun word => !word.isEmpty
  words == ["%YAML".toList, "1.1".toList] || words == ["%YAML".toList, "1.2".toList]

/-- A directive; only that of the version is known. -/
def fetchDirective? (lexer : Lexer) : Option Lexer := do
  let lexer ← (lexer.unindent (-1)).dropCandidate?
  let (line, rest) := lexer.rest.span fun s => !s.endsLine
  if isVersionDirective (line.map Symbol.char) then
    return ({ lexer with rest }.allowKey false).push .directive
  else none

/-- A plain scalar may begin with a symbol, given what follows it. -/
def startsPlain (inFlow : Bool) (s : Symbol) (after : List Symbol) : Bool :=
  let indicator := "-?:,[]\x7b\x7d#&*!|>'\"%@`".toList.contains s.char
  (!s.endsWord && !indicator) ||
    (s.char == '-' && !(after.head?.any Symbol.isBlank)) ||
    (!inFlow && (s.char == '?' || s.char == ':') && !atWordEnd after)

/-- Fetches the token that begins at the next symbol, which belongs to no gap. -/
def fetch? (lexer : Lexer) : Option Lexer :=
  let s := lexer.next
  let after := lexer.rest.drop 1
  let inFlow := lexer.inFlow
  if s.column == 0 && s.char == '%' then lexer.fetchDirective?
  else if isMarker '-' lexer.rest then lexer.fetchMarker? .documentStart
  else if isMarker '.' lexer.rest then lexer.fetchMarker? .documentEnd
  else if s.char = '[' then lexer.fetchOpen? .openBracket
  else if s.char = '\x7b' then lexer.fetchOpen? .openBrace
  else if s.char = ']' then lexer.fetchClose? .closeBracket
  else if s.char = '\x7d' then lexer.fetchClose? .closeBrace
  else if s.char = ',' then lexer.fetchComma?
  else if s.char == '-' && atWordEnd after then lexer.fetchEntry?
  else if s.char == '?' && (inFlow || atWordEnd after) then lexer.fetchKey?
  else if s.char == ':' && (inFlow || atWordEnd after) then lexer.fetchValue?
  else if s.char = '*' then lexer.fetchName? .alias
  else if s.char = '&' then lexer.fetchName? .anchor
  else if s.char == '|' && !inFlow then lexer.fetchBlock? true
  else if s.char == '>' && !inFlow then lexer.fetchBlock? false
  else if s.char = '\'' ∨ s.char = '"' then lexer.fetchQuoted? s.char
  else if startsPlain inFlow s after then lexer.fetchPlain?
  else none

/-- Fetches tokens until the text ends; the tokens come out in order. -/
def run? : (fuel : Nat) → Lexer → Option (List Token)
  | 0, _ => none
  | fuel + 1, lexer => do
    let lexer ← (lexer.skipGap lexer.size).dropLapsed?
    let lexer := lexer.unindent lexer.column
    if lexer.next.isEnd then
      let lexer ← (lexer.unindent (-1)).dropCandidate?
      return lexer.tokens.toList
    else run? fuel (← lexer.fetch?)

end Lexer

/-- The tokens of a text. -/
def tokens? (text : List Char) : Option (List Token) := do
  let symbols ← symbols? text
  let size := symbols.length + 1
  Lexer.run? size { rest := symbols, size }

end Rollup.Yaml
