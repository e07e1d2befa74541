/-!
# Symbols of YAML text

Reading YAML hangs on where characters stand. A `Symbol` is a character with its place; a text is
read as its symbols, a line break of any spelling being one symbol, and one more symbol that marks
the end.
-/

namespace Rollup.Yaml

/-- A character of a text and its place. -/
structure Symbol where
  /-- The character; a line feed for a line break, and null for the end of the text. -/
  char : Char
  /-- The line, counted from zero. -/
  line : Nat
  /-- The characters before it in its line. -/
  column : Nat
  /-- The characters before it in the text. -/
  index : Nat
deriving DecidableEq

/-- The character of the symbol that marks the end of a text. -/
def endMark : Char := Char.ofNat 0

/-- Whether a character may occur in a text. -/
def isAllowed (c : Char) : Bool :=
  let n := c.toNat
  n == 0x09 || n == 0x0A || n == 0x0D || (0x20 ≤ n && n ≤ 0x7E) || n == 0x85 ||
    (0xA0 ≤ n && n ≤ 0xFFFD) || 0x10000 ≤ n

/-- The symbols of a text from a place on. -/
def symbolsFrom (line column index : Nat) : List Char → List Symbol
  | [] => [⟨endMark, line, column, index⟩]
  | '\r' :: '\n' :: rest => ⟨'\n', line, column, index⟩ :: symbolsFrom (line + 1) 0 (index + 2) rest
  | c :: rest =>
    let n := c.toNat
    if n = 0x0A ∨ n = 0x0D ∨ n = 0x85 then
      ⟨'\n', line, column, index⟩ :: symbolsFrom (line + 1) 0 (index + 1) rest
    else if n = 0x2028 ∨ n = 0x2029 then
      ⟨c, line, column, index⟩ :: symbolsFrom (line + 1) 0 (index + 1) rest
    else ⟨c, line, column, index⟩ :: symbolsFrom line (column + 1) (index + 1) rest

/-- The symbols of a text without its byte order mark; a text with a forbidden character has
none. -/
def symbols? (text : List Char) : Option (List Symbol) :=
  let text :=
    match text with
    | c :: rest => if c.toNat = 0xFEFF then rest else c :: rest
    | [] => []
  if text.all isAllowed then some (symbolsFrom 0 0 0 text) else none

namespace Symbol

/-- The symbol breaks a line. -/
def isBreak (s : Symbol) : Bool :=
  s.char == '\n' || s.char.toNat == 0x2028 || s.char.toNat == 0x2029

/-- The symbol is a space or a tab. -/
def isBlank (s : Symbol) : Bool :=
  s.char == ' ' || s.char == '\t'

/-- The symbol marks the end of the text. -/
def isEnd (s : Symbol) : Bool :=
  s.char == endMark

/-- The symbol breaks a line or marks the end. -/
def endsLine (s : Symbol) : Bool :=
  s.isBreak || s.isEnd

/-- The symbol cannot belong to a word. -/
def endsWord (s : Symbol) : Bool :=
  s.isBlank || s.endsLine

end Symbol

/-- The next symbol cannot belong to a word. -/
def atWordEnd : List Symbol → Bool
  | s :: _ => s.endsWord
  | [] => true

/-- The next symbol is the given character. -/
def startsWith (c : Char) : List Symbol → Bool
  | s :: _ => s.char == c
  | [] => false

/-- Three of the given character stand at the start of a line, and no more of the word. -/
def isMarker (c : Char) : List Symbol → Bool
  | r :: s :: t :: rest =>
    r.column == 0 && r.char == c && s.char == c && t.char == c && atWordEnd rest
  | _ => false

/-- A marker between documents stands here. -/
def atDocumentMarker (symbols : List Symbol) : Bool :=
  isMarker '-' symbols || isMarker '.' symbols

end Rollup.Yaml
