import Rollup.Value.Basic
import Rollup.Yaml.Plain

/-!
# Writing YAML text

Values are written in block style, two spaces a level; a sequence in a mapping starts at the column
of its key. A string is plain where that reads back as the same string, in single quotes otherwise,
and a literal block if it holds a line feed. A string with characters that none of these can show is
in double quotes.
-/

namespace Rollup.Yaml

/-- Whether a character breaks a line. -/
def isBreak (c : Char) : Bool :=
  let n := c.toNat
  n == 0x0A || n == 0x0D || n == 0x85 || n == 0x2028 || n == 0x2029

/-- Whether a character can stand unescaped. -/
def isPrintable (c : Char) : Bool :=
  let n := c.toNat
  n == 0x0A || (0x20 ≤ n && n ≤ 0x7E) || (0xA0 ≤ n && n < 0xFEFF) ||
    (0xFEFF < n && n < 0xFFFE) || 0xFFFF < n

/-- Whether a character ends a word. -/
def isGap (c : Char) : Bool :=
  c == ' ' || c == '\t' || isBreak c

/-- What may stand where, for one string. -/
structure Shape where
  /-- The string breaks a line. -/
  multiline : Bool
  /-- The string may be plain. -/
  plain : Bool
  /-- The string may be in single quotes. -/
  singleQuoted : Bool
  /-- The string may be a literal block. -/
  literal : Bool

/-- A character that begins something else when it is first. -/
def isLeadingIndicator (c : Char) : Bool :=
  "#,[]\x7b\x7d&*!|>'\"%@`".toList.contains c

/-- Whether a word of the string would be read as something else, given the character before it. -/
def hasIndicator : (before : Option Char) → List Char → Bool
  | _, [] => false
  | before, c :: rest =>
    let gapAfter := rest.head?.all isGap
    let gapBefore := before.all isGap
    let here :=
      if before.isNone then
        isLeadingIndicator c || ((c == '?' || c == ':' || c == '-') && gapAfter)
      else (c == ':' && gapAfter) || (c == '#' && gapBefore)
    here || hasIndicator (some c) rest

/-- Whether a character of the first kind is directly followed by one of the second. -/
def hasPair (first second : Char → Bool) : List Char → Bool
  | a :: b :: rest => (first a && second b) || hasPair first second (b :: rest)
  | _ => false

/-- What may stand where, for a string. -/
def Shape.ofText (text : List Char) : Shape :=
  let isSpace := fun c => c == ' '
  let marker := ['-', '-', '-'].isPrefixOf text || ['.', '.', '.'].isPrefixOf text
  let edge := (text.head?.any fun c => isSpace c || isBreak c) ||
    (text.getLast?.any fun c => isSpace c || isBreak c)
  let breaks := text.any isBreak
  let special := hasPair isSpace isBreak text || text.any fun c => !isPrintable c
  let breakSpace := hasPair isBreak isSpace text
  { multiline := breaks
    plain := !(marker || hasIndicator none text || edge || breaks || special)
    singleQuoted := !(breakSpace || special)
    literal := !(text.isEmpty || text.getLast? == some ' ' || special) }

/-- A hexadecimal digit in upper case. -/
def upperHexDigit (n : Nat) : Char :=
  (Nat.digitChar n).toUpper

/-- The last `width` hexadecimal digits of a number. -/
def hexText : (width : Nat) → Nat → List Char
  | 0, _ => []
  | width + 1, n => hexText width (n / 16) ++ [upperHexDigit (n % 16)]

/-- The text of one character between double quotes. -/
def escapeDouble (c : Char) : List Char :=
  if isPrintable c && !isBreak c && c != '"' && c != '\\' then [c]
  else
    '\\' ::
      match c.toNat with
      | 0x00 => ['0']
      | 0x07 => ['a']
      | 0x08 => ['b']
      | 0x09 => ['t']
      | 0x0A => ['n']
      | 0x0B => ['v']
      | 0x0C => ['f']
      | 0x0D => ['r']
      | 0x1B => ['e']
      | 0x22 => ['"']
      | 0x5C => ['\\']
      | 0x85 => ['N']
      | 0xA0 => ['_']
      | 0x2028 => ['L']
      | 0x2029 => ['P']
      | n =>
        if n ≤ 0xFF then 'x' :: hexText 2 n
        else if n ≤ 0xFFFF then 'u' :: hexText 4 n
        else 'U' :: hexText 8 n

/-- Spaces up to a column. -/
def pad (column : Nat) : List Char :=
  List.replicate column ' '

/-- The text between single quotes: a quote is doubled, and the line after a break starts at a
column. -/
def singleQuotedBody (column : Nat) : (afterBreak : Bool) → List Char → List Char
  | afterBreak, [] => if afterBreak then pad column else []
  | afterBreak, c :: rest =>
    if isBreak c then c :: singleQuotedBody column true rest
    else
      (if afterBreak then pad column else []) ++ (if c = '\'' then ['\'', '\''] else [c]) ++
        singleQuotedBody column false rest

/-- The lines of a literal block, each ended, at a column; empty lines stay empty. -/
def literalBody (column : Nat) : (atStart : Bool) → List Char → List Char
  | atStart, [] => if atStart then [] else ['\n']
  | atStart, c :: rest =>
    if isBreak c then c :: literalBody column true rest
    else (if atStart then pad column else []) ++ c :: literalBody column false rest

/-- What the header of a literal block says: the indentation where the block does not show it, and
what becomes of the line feeds at the end. -/
def literalHeader (text : List Char) : List Char :=
  let indentation := if text.head?.any fun c => c == ' ' || isBreak c then ['2'] else []
  let chomping :=
    match text.reverse with
    | last :: before :: _ => if !isBreak last then ['-'] else if isBreak before then ['+'] else []
    | [last] => if isBreak last then ['+'] else ['-']
    | [] => ['-']
  '|' :: indentation ++ chomping

/-- Whether a string read as a plain scalar would not be a string. -/
def readsOtherwise (text : List Char) : Bool :=
  Plain.ofText text != .string || isZeroPadded text

/-- The text of a string, with the lines after the first at a column, up to the end of the line. -/
def stringText (column : Nat) (text : List Char) : List Char :=
  let shape := Shape.ofText text
  let doubleQuoted := '"' :: text.flatMap escapeDouble ++ ['"', '\n']
  if text.contains '\n' then
    if shape.literal then literalHeader text ++ '\n' :: literalBody column true text
    else doubleQuoted
  else if !readsOtherwise text && shape.plain then text ++ ['\n']
  else if shape.singleQuoted then '\'' :: singleQuotedBody column false text ++ ['\'', '\n']
  else doubleQuoted

/-- Whether a key can stand before its colon on one line. -/
def isSimpleKey (key : List Char) : Bool :=
  !(Shape.ofText key).multiline && (String.ofList key).utf8ByteSize ≤ 128

/-- The text of a value that is not a collection with entries, up to the end of the line. -/
def scalarText (column : Nat) : Value → List Char
  | .null => "null\n".toList
  | .bool flag => if flag then "true\n".toList else "false\n".toList
  | .number n => n.text .yaml ++ ['\n']
  | .string text => stringText column text.toList
  | .array _ => "[]\n".toList
  | .object _ => "\x7b\x7d\n".toList

mutual

/-- The text of a value from a column on, up to the end of its last line. -/
def writeAt (column : Nat) : Value → List Char
  | .array items =>
    if items.isEmpty then "[]\n".toList else (writeItems column items).drop column
  | .object members =>
    if members.isEmpty then "\x7b\x7d\n".toList else (writeMembers column members).drop column
  | scalar => scalarText column scalar

/-- The lines of the items of a sequence whose dashes stand at a column. -/
def writeItems (column : Nat) : List Value → List Char
  | [] => []
  | item :: items =>
    pad column ++ '-' :: ' ' :: writeAt (column + 2) item ++ writeItems column items

/-- The lines of the members of a mapping whose keys start at a column. -/
def writeMembers (column : Nat) : List (String × Value) → List Char
  | [] => []
  | (key, value) :: members =>
    (if isSimpleKey key.toList then
      pad column ++ (stringText column key.toList).dropLast ++ ':' :: writeAfterKey column value
    else
      pad column ++ '?' :: ' ' :: stringText (column + 2) key.toList ++
        pad column ++ ':' :: ' ' :: writeAt (column + 2) value) ++
      writeMembers column members

/-- The text of a value after a key that starts at a column and its colon. -/
def writeAfterKey (column : Nat) : Value → List Char
  | .array items =>
    if items.isEmpty then " []\n".toList else '\n' :: writeItems column items
  | .object members =>
    if members.isEmpty then " \x7b\x7d\n".toList else '\n' :: writeMembers (column + 2) members
  | scalar => ' ' :: scalarText (column + 2) scalar

end

/-- The text of a value, as one document. -/
def write (value : Value) : String :=
  String.ofList <|
    match value with
    | .string text => stringText 2 text.toList
    | value => writeAt 0 value

end Rollup.Yaml
