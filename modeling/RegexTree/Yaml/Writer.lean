import RegexTree.Document
import RegexTree.Text.Hexadecimal
import RegexTree.Yaml.Plain
import RegexTree.Yaml.Token
import RegexTree.Yaml.Glyph

/-!
# Writing YAML

Block style throughout: a line for each field and each item, indented by two places for each level, and a sequence at the
column of its key. A text is written plain where that reads back as the same text, as a literal block where it has several
lines, and else between quotes.
-/

namespace RegexTree.Yaml

/-! ## Scalars -/

/-- A character that is written as it is, not as an escape. -/
def isPrintable (c : Char) : Bool :=
  let n := c.toNat
  n == 0x0A || (0x20 ≤ n && n ≤ 0x7E) || (0xA0 ≤ n && n ≤ 0xD7FF) || (0xE000 ≤ n && n ≤ 0xFFFD && n != 0xFEFF) || 0x10000 ≤ n

/-- The character ends a word, and so does the end of the text. -/
def isWordEnd : Option Char → Bool
  | some c => isGap c
  | none => true

/-- An indicator at the beginning of a text, before the given rest. -/
def isLeadingIndicator (c : Char) (rest : List Char) : Bool :=
  ['#', ',', '[', ']', '\x7b', '\x7d', '&', '*', '!', '|', '>', '\'', '"', '%', '@', '`'].contains c ||
    (['?', ':', '-'].contains c && isWordEnd rest.head?)

/-- An indicator further on in a text: a colon before white space or a number sign behind it. -/
def hasInnerIndicator : (previous : Char) → List Char → Bool
  | _, [] => false
  | previous, c :: rest =>
    (c == ':' && isWordEnd rest.head?) || (c == '#' && isGap previous) || hasInnerIndicator c rest

/-- The text begins like a line that begins or ends a document. -/
def beginsLikeDocumentLine : List Char → Bool
  | '-' :: '-' :: '-' :: _ => true
  | '.' :: '.' :: '.' :: _ => true
  | _ => false

/-- A plain scalar would be read as something other than its characters. -/
def hasIndicator : List Char → Bool
  | [] => false
  | c :: rest => beginsLikeDocumentLine (c :: rest) || isLeadingIndicator c rest || hasInnerIndicator c rest

/-- A line break comes right behind a space. -/
def hasSpaceBreak : List Char → Bool
  | [] => false
  | c :: rest => (c == ' ' && rest.head?.any isBreak) || hasSpaceBreak rest

/-- A space comes right behind a line break. -/
def hasBreakSpace : List Char → Bool
  | [] => false
  | c :: rest => (isBreak c && rest.head? == some ' ') || hasBreakSpace rest

/-- The character is a space or a line break. -/
def isSpaceOrBreak (c : Char) : Bool := c == ' ' || isBreak c

/-- The text can only be written with escapes. -/
def needsEscapes (cs : List Char) : Bool := hasSpaceBreak cs || !cs.all isPrintable

/-- The text can be written plain. -/
def allowsPlain (cs : List Char) : Bool :=
  !(needsEscapes cs || cs.any isBreak || cs.head?.any isSpaceOrBreak || cs.getLast?.any isSpaceOrBreak || hasIndicator cs)

/-- The text can be written between single quotes. -/
def allowsSingleQuotes (cs : List Char) : Bool := !(needsEscapes cs || hasBreakSpace cs)

/-- The text can be written as a literal block. -/
def allowsBlock (cs : List Char) : Bool := !(needsEscapes cs || cs.isEmpty || cs.getLast? == some ' ')

/-- The style a text is written in. -/
def styleOf (cs : List Char) : Style :=
  if cs.contains '\n' then (if allowsBlock cs then .literal else .doubleQuoted)
  else if !isAmbiguous cs && allowsPlain cs then .plain
  else if allowsSingleQuotes cs then .singleQuoted
  else .doubleQuoted

/-- The letter of a short escape. -/
def escapeLetter? (c : Char) : Option Char :=
  match c with
  | '\x00' => some '0'
  | '\x07' => some 'a'
  | '\x08' => some 'b'
  | '\t' => some 't'
  | '\n' => some 'n'
  | '\x0b' => some 'v'
  | '\x0c' => some 'f'
  | '\r' => some 'r'
  | '\x1b' => some 'e'
  | '"' => some '"'
  | '\\' => some '\\'
  | '\u0085' => some 'N'
  | '\u00a0' => some '_'
  | '\u2028' => some 'L'
  | '\u2029' => some 'P'
  | _ => none

/-- An escape. -/
def escape (c : Char) : List Char :=
  match escapeLetter? c with
  | some letter => ['\\', letter]
  | none =>
    let n := c.toNat
    if n ≤ 0xFF then '\\' :: 'x' :: Text.hexDigits .capital 2 n
    else if n ≤ 0xFFFF then '\\' :: 'u' :: Text.hexDigits .capital 4 n
    else '\\' :: 'U' :: Text.hexDigits .capital 8 n

/-- A character between double quotes. -/
def doubleQuotedChar (c : Char) : List Char :=
  if !isPrintable c || isBreak c || c == '"' || c == '\\' then escape c else [c]

/-- So many spaces. -/
def spaces (n : Nat) : List Char := List.replicate n ' '

/-- A text between single quotes, where quotes are doubled and what follows a line break is indented. -/
def singleQuotedChars (indent : Nat) : (afterBreak : Bool) → List Char → List Char
  | afterBreak, [] => if afterBreak then spaces indent else []
  | afterBreak, c :: rest =>
    if isBreak c then c :: singleQuotedChars indent true rest
    else
      (if afterBreak then spaces indent else []) ++ (if c == '\'' then ['\'', '\''] else [c]) ++
        singleQuotedChars indent false rest

/-- The lines of a literal block, each of them indented unless it is empty. -/
def blockChars (indent : Nat) : (afterBreak : Bool) → List Char → List Char
  | _, [] => []
  | afterBreak, c :: rest =>
    if isBreak c then c :: blockChars indent true rest
    else (if afterBreak then spaces indent else []) ++ c :: blockChars indent false rest

/-- What a literal block says of its last line breaks: that there is none, just one, or more to keep. -/
def chompingSign (cs : List Char) : List Char :=
  match cs.reverse with
  | [] => ['-']
  | [c] => if isBreak c then ['+'] else ['-']
  | c :: b :: _ => if !isBreak c then ['-'] else if isBreak b then ['+'] else []

/-- The header of a literal block, which states the indentation where the text begins with white space. -/
def blockHeader (cs : List Char) : List Char :=
  '|' :: (if cs.head?.any isSpaceOrBreak then ['2'] else []) ++ chompingSign cs

/-- A text, where lines after the first are indented by `indent`. A literal block ends in a line break of its own or of the
text. -/
def scalarChars (indent : Nat) (cs : List Char) : List Char :=
  match styleOf cs with
  | .plain | .folded => cs
  | .singleQuoted => '\'' :: singleQuotedChars indent false cs ++ ['\'']
  | .doubleQuoted => '"' :: cs.flatMap doubleQuotedChar ++ ['"']
  | .literal => blockHeader cs ++ '\n' :: blockChars indent true cs

/-- A line break, unless there is one already. -/
def endLine (cs : List Char) : List Char := if cs.getLast?.any isBreak then cs else cs ++ ['\n']

/-! ## Documents -/

/-- A scalar, or a collection without parts, to the end of its line. -/
def writeLeaf (indent : Nat) : Document → List Char
  | .null => endLine ['n', 'u', 'l', 'l']
  | .flag value => endLine (toString value).toList
  | .number value => endLine value.text.toList
  | .text value => endLine (scalarChars indent value.toList)
  | .list _ => endLine ['[', ']']
  | .record _ => endLine ['\x7b', '\x7d']

mutual
/-- A document from the column `indent` of a line that is indented already, to the end of its last line. -/
def write (indent : Nat) : Document → List Char
  | .list (item :: items) => '-' :: ' ' :: write (indent + 2) item ++ writeItems indent items
  | .record ((key, value) :: fields) =>
    scalarChars indent key.toList ++ ':' :: writeValue indent value ++ writeFields indent fields
  | leaf => writeLeaf indent leaf

/-- The items after the first. -/
def writeItems (indent : Nat) : List Document → List Char
  | [] => []
  | item :: items => spaces indent ++ '-' :: ' ' :: write (indent + 2) item ++ writeItems indent items

/-- The fields after the first. -/
def writeFields (indent : Nat) : List (String × Document) → List Char
  | [] => []
  | (key, value) :: fields =>
    spaces indent ++ scalarChars indent key.toList ++ ':' :: writeValue indent value ++ writeFields indent fields

/-- What stands behind the colon of a field: a record goes to lines of its own, further in, and so does a list, at the column of
the field. -/
def writeValue (indent : Nat) : Document → List Char
  | .list (item :: items) =>
    '\n' :: spaces indent ++ '-' :: ' ' :: write (indent + 2) item ++ writeItems indent items
  | .record ((key, value) :: fields) =>
    '\n' :: spaces (indent + 2) ++ scalarChars (indent + 2) key.toList ++ ':' :: writeValue (indent + 2) value ++
      writeFields (indent + 2) fields
  | leaf => ' ' :: writeLeaf (indent + 2) leaf
end

/-- The text of a document. -/
def render (document : Document) : String := String.ofList (write 0 document)

end RegexTree.Yaml
