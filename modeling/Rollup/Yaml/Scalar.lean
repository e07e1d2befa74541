import Rollup.Text.Digits
import Rollup.Yaml.Symbol

/-!
# Scalars of YAML text

A scalar may go over several lines. Between the words of a plain or a quoted scalar one line break
counts as a space and further ones as themselves (`foldGap`); a block scalar keeps its lines, or
folds them likewise.
-/

namespace Rollup.Yaml

/-- The text of the blanks and line breaks between two words. After an escaped line break only
further line breaks count. -/
def foldGap (escaped : Bool) (gap : List Symbol) : List Char :=
  let breaks := (gap.filter Symbol.isBreak).map Symbol.char
  if escaped then breaks
  else
    match breaks with
    | [] => gap.map Symbol.char
    | '\n' :: [] => [' ']
    | '\n' :: more => more
    | other => other

/-- The blanks and line breaks at the start, and what follows them. -/
def splitGap (symbols : List Symbol) : List Symbol × List Symbol :=
  symbols.span fun s => s.isBlank || s.isBreak

/-! ### Quoted scalars -/

/-- What a letter after a backslash stands for: a character, or the number of hexadecimal digits of
one. -/
def escapeOf? (c : Char) : Option (Char ⊕ Nat) :=
  match c with
  | '0' => some (.inl (Char.ofNat 0))
  | 'a' => some (.inl (Char.ofNat 7))
  | 'b' => some (.inl (Char.ofNat 8))
  | 't' | '\t' => some (.inl '\t')
  | 'n' => some (.inl '\n')
  | 'v' => some (.inl (Char.ofNat 11))
  | 'f' => some (.inl (Char.ofNat 12))
  | 'r' => some (.inl '\r')
  | 'e' => some (.inl (Char.ofNat 27))
  | ' ' | '"' | '/' | '\\' => some (.inl c)
  | 'N' => some (.inl (Char.ofNat 0x85))
  | '_' => some (.inl (Char.ofNat 0xA0))
  | 'L' => some (.inl (Char.ofNat 0x2028))
  | 'P' => some (.inl (Char.ofNat 0x2029))
  | 'x' => some (.inr 2)
  | 'u' => some (.inr 4)
  | 'U' => some (.inr 8)
  | _ => none

/-- The character with the code point that some hexadecimal digits spell. -/
def charOfHex? (width : Nat) (digits : List Symbol) : Option Char := do
  let code ← Text.natIn? 16 (digits.map Symbol.char)
  if digits.length = width ∧ code.isValidChar then some (Char.ofNat code) else none

/-- Reads a word of a quoted scalar: its text, whether it ends in an escaped line break, and the
rest. -/
def readQuotedWord? (quote : Char) (symbols : List Symbol) :
    Option (List Char × Bool × List Symbol) :=
  match symbols with
  | [] => none
  | s :: rest =>
    if s.endsWord then some ([], false, s :: rest)
    else if s.char = quote then
      match rest with
      | t :: rest' =>
        if quote = '\'' ∧ t.char = '\'' then
          (readQuotedWord? quote rest').map fun (text, found) => ('\'' :: text, found)
        else some ([], false, s :: rest)
      | [] => none
    else if quote = '"' ∧ s.char = '\\' then
      match rest with
      | t :: rest' =>
        if t.isBreak then some ([], true, rest')
        else
          match escapeOf? t.char with
          | none => none
          | some (.inl c) =>
            (readQuotedWord? quote rest').map fun (text, found) => (c :: text, found)
          | some (.inr width) =>
            match charOfHex? width (rest'.take width) with
            | none => none
            | some c =>
              (readQuotedWord? quote (rest'.drop width)).map fun (text, found) => (c :: text, found)
      | [] => none
    else (readQuotedWord? quote rest).map fun (text, found) => (s.char :: text, found)
termination_by symbols.length
decreasing_by
  all_goals
    simp only [List.length_cons, List.length_drop]
    omega

/-- Reads a quoted scalar from behind its opening quote to behind its closing one, word by word. -/
def readQuoted? (quote : Char) : (fuel : Nat) → List Symbol → Option (List Char × List Symbol)
  | 0, _ => none
  | fuel + 1, symbols =>
    if atDocumentMarker symbols then none
    else do
      let (word, escaped, rest) ← readQuotedWord? quote symbols
      match rest with
      | s :: after =>
        if s.isEnd then none
        else if s.char = quote then return (word, after)
        else
          let (gap, rest) := splitGap rest
          let (text, rest) ← readQuoted? quote fuel rest
          return (word ++ foldGap escaped gap ++ text, rest)
      | [] => none

/-! ### Plain scalars -/

/-- A character that ends a plain scalar inside brackets or braces. -/
def isFlowIndicator (c : Char) : Bool :=
  c == ',' || c == '[' || c == ']' || c == '\x7b' || c == '\x7d'

/-- Reads a word of a plain scalar. Inside brackets or braces a colon must not be followed by an
indicator. -/
def readPlainWord? (inFlow : Bool) : List Symbol → Option (List Char × List Symbol)
  | [] => some ([], [])
  | s :: rest =>
    if s.endsWord then some ([], s :: rest)
    else if inFlow && s.char == ':' &&
        rest.head?.any (fun t => isFlowIndicator t.char || t.char == '?') then
      none
    else if (s.char == ':' && atWordEnd rest) || (inFlow && isFlowIndicator s.char) then
      some ([], s :: rest)
    else (readPlainWord? inFlow rest).map fun (word, rest) => (s.char :: word, rest)

/-- A tab stands where the indentation of a continuation line should be. -/
def hasIndentingTab (indent : Int) (gap : List Symbol) : Bool :=
  (gap.dropWhile fun s => !s.isBreak).any fun s => s.char == '\t' && (s.column : Int) < indent

/-- The column of the next symbol. -/
def columnOf : List Symbol → Int
  | s :: _ => s.column
  | [] => 0

/--
Reads the words of a plain scalar, given the gap before the next of them. The answer also tells
whether a line break stands between the last word and what follows.
-/
def readPlain? (inFlow : Bool) (indent : Int) :
    (fuel : Nat) → (gap : List Symbol) → List Symbol → Option (List Char × Bool × List Symbol)
  | 0, _, _ => none
  | fuel + 1, gap, symbols =>
    let ended := some ([], gap.any Symbol.isBreak, symbols)
    if atDocumentMarker symbols || startsWith '#' symbols then ended
    else do
      let (word, rest) ← readPlainWord? inFlow symbols
      if word.isEmpty then ended
      else
        let text := foldGap false gap ++ word
        let (gap, rest) := splitGap rest
        if gap.isEmpty then return (text, false, rest)
        else if hasIndentingTab indent gap then none
        else if !inFlow && columnOf rest < indent then
          return (text, gap.any Symbol.isBreak, rest)
        else
          let (more, broken, rest) ← readPlain? inFlow indent fuel gap rest
          return (text ++ more, broken, rest)

/-! ### Block scalars -/

/-- What becomes of the line breaks at the end of a block scalar. -/
inductive Chomping where
  /-- None is kept. -/
  | strip
  /-- One is kept. -/
  | clip
  /-- All are kept. -/
  | keep
deriving DecidableEq

/-- Reads a chomping indicator, if there is one. -/
def readChomping : List Symbol → Option Chomping × List Symbol
  | s :: rest =>
    if s.char = '-' then (some .strip, rest)
    else if s.char = '+' then (some .keep, rest)
    else (none, s :: rest)
  | [] => (none, [])

/-- Reads an indentation indicator, if there is one; it must not be zero. -/
def readIncrement? : List Symbol → Option (Option Nat × List Symbol)
  | s :: rest =>
    if s.char = '0' then none
    else if s.char.isDigit then some (some (s.char.toNat - '0'.toNat), rest)
    else some (none, s :: rest)
  | [] => some (none, [])

/-- Reads the header of a block scalar to the end of its line: the two indicators in either order,
blanks, and a comment. -/
def readBlockHeader? (symbols : List Symbol) : Option (Chomping × Option Nat × List Symbol) := do
  let (chomping, rest) := readChomping symbols
  let (increment, rest) ← readIncrement? rest
  let (chomping, rest) :=
    match chomping with
    | some chomping => (some chomping, rest)
    | none => if increment.isSome then readChomping rest else (none, rest)
  let rest := rest.dropWhile Symbol.isBlank
  let rest := if startsWith '#' rest then rest.dropWhile fun s => !s.endsLine else rest
  match rest with
  | s :: after =>
    if s.isBreak then return (chomping.getD .clip, increment, after)
    else if s.isEnd then return (chomping.getD .clip, increment, rest)
    else none
  | [] => none

/--
Reads empty lines and the indentation of the next line that is not empty. An indentation of zero is
not known yet: then all spaces count to it. The answer holds the widest indentation seen and the
line breaks.
-/
def readIndentation? (indent : Nat) :
    (widest : Nat) → List Symbol → Option (Nat × List Char × List Symbol)
  | widest, [] => some (widest, [], [])
  | widest, s :: rest =>
    let inside := indent == 0 || s.column < indent
    if s.char = ' ' ∧ inside then readIndentation? indent widest rest
    else
      let widest := max widest s.column
      if s.char = '\t' ∧ inside then none
      else if s.isBreak then
        (readIndentation? indent widest rest).map fun (widest, breaks, rest) =>
          (widest, s.char :: breaks, rest)
      else some (widest, [], s :: rest)

/--
Reads the lines of a block scalar at an indentation, given the break that ended the line before,
whether that line started with a blank, and the empty lines since. The answer holds the text and the
line breaks at its end: that of the last line, and those of the empty lines after it.
-/
def readBlockLines? (literal : Bool) (indent : Nat) :
    (fuel : Nat) → (lineBreak : List Char) → (blankBefore : Bool) → (empty : List Char) →
      List Symbol → Option (List Char × List Char × List Char × List Symbol)
  | 0, _, _, _, _ => none
  | fuel + 1, lineBreak, blankBefore, empty, symbols =>
    match symbols with
    | [] => none
    | s :: _ =>
      if s.column = indent ∧ !s.isEnd then do
        let joint :=
          if !literal && lineBreak == ['\n'] && !blankBefore && !s.isBlank then
            if empty.isEmpty then [' '] else []
          else lineBreak
        let (line, rest) := symbols.span fun s => !s.endsLine
        let (lineBreak, rest) :=
          match rest with
          | t :: after => if t.isBreak then ([t.char], after) else ([], t :: after)
          | [] => ([], [])
        let (_, nextEmpty, rest) ← readIndentation? indent 0 rest
        let (text, atEnd) ← readBlockLines? literal indent fuel lineBreak s.isBlank nextEmpty rest
        return (joint ++ empty ++ line.map Symbol.char ++ text, atEnd)
      else return ([], lineBreak, empty, symbols)

/-- Reads a block scalar from behind its indicator, given the indentation of the collection around
it and a bound on its lines. -/
def readBlock? (literal : Bool) (outer : Int) (fuel : Nat) (symbols : List Symbol) :
    Option (List Char × List Symbol) := do
  let (chomping, increment, rest) ← readBlockHeader? symbols
  let given : Nat :=
    match increment with
    | some n => (max outer 0).toNat + n
    | none => 0
  let (widest, empty, rest) ← readIndentation? given 0 rest
  let indent := if given = 0 then max (max widest (outer + 1).toNat) 1 else given
  let (text, lineBreak, empty, rest) ←
    readBlockLines? literal indent fuel [] false empty rest
  let kept :=
    match chomping with
    | .strip => []
    | .clip => lineBreak
    | .keep => lineBreak ++ empty
  return (text ++ kept, rest)

end Rollup.Yaml
