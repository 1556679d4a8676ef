/-!
# Characters with their places

A YAML text is read as a list of glyphs: each character with its place. Line breaks are unified here, so that whatever a line
ends with becomes one glyph, and the list ends in a glyph of its own for the end of the text. No character of a text can be
taken for that one, since a text may not hold it.
-/

namespace RegexTree.Yaml

/-- A character of a text and its place: how many characters stand before it, in its line and in all, and how many lines. -/
structure Glyph where
  char : Char
  index : Nat
  line : Nat
  column : Nat
  deriving DecidableEq

/-- The mark of the end of a text. -/
def endMark : Char := '\x00'

/-- The next line of the control characters, which ends a line. -/
def nextLine : Char := '\u0085'

/-- The mark of byte order, which may stand at the beginning of a line. -/
def byteOrderMark : Char := '\ufeff'

/-- A line break after unification. -/
def isBreak (c : Char) : Bool := c == '\n' || c == '\u2028' || c == '\u2029'

/-- A space or a tab. -/
def isWhite (c : Char) : Bool := c == ' ' || c == '\t'

/-- A line break or the end. -/
def isLineEnd (c : Char) : Bool := isBreak c || c == endMark

/-- White space, a line break or the end. -/
def isGap (c : Char) : Bool := isWhite c || isLineEnd c

/-- A letter, a digit, an underscore or a dash, all of ASCII. -/
def isWordChar (c : Char) : Bool := c.isAlphanum || c == '_' || c == '-'

/-- A character a text may hold. -/
def isAdmissible (c : Char) : Bool :=
  let n := c.toNat
  n == 0x09 || n == 0x0A || n == 0x0D || (0x20 ≤ n && n ≤ 0x7E) || n == 0x85 || (0xA0 ≤ n && n ≤ 0xD7FF) ||
    (0xE000 ≤ n && n ≤ 0xFFFD) || 0x10000 ≤ n

namespace Glyph

/-- The glyphs of a text from a place on. -/
def place (index line column : Nat) : List Char → List Glyph
  | [] => [⟨endMark, index, line, column⟩]
  | '\r' :: '\n' :: cs => ⟨'\n', index, line, column⟩ :: place (index + 2) (line + 1) 0 cs
  | c :: cs =>
    if c == '\r' || c == nextLine then ⟨'\n', index, line, column⟩ :: place (index + 1) (line + 1) 0 cs
    else if isBreak c then ⟨c, index, line, column⟩ :: place (index + 1) (line + 1) 0 cs
    else ⟨c, index, line, column⟩ :: place (index + 1) line (column + 1) cs

/-- The glyphs of a text, if it may hold all of its characters. -/
def ofChars? (cs : List Char) : Option (List Glyph) := if cs.all isAdmissible then some (place 0 0 0 cs) else none

end Glyph

/-- The character that a list of glyphs begins with, the end where it is empty. -/
def peek : List Glyph → Char
  | [] => endMark
  | g :: _ => g.char

/-- The column at which a list of glyphs begins. -/
def columnOf : List Glyph → Nat
  | [] => 0
  | g :: _ => g.column

/-- The list of glyphs begins with these characters. -/
def beginsWith : List Char → List Glyph → Bool
  | [], _ => true
  | _ :: _, [] => false
  | c :: cs, g :: gs => g.char == c && beginsWith cs gs

/-- A line that begins or ends a document: three dashes or three dots in the first column and nothing at once behind them. -/
def isDocumentLine (mark : Char) (gs : List Glyph) : Bool :=
  columnOf gs == 0 && beginsWith [mark, mark, mark] gs && isGap (peek (gs.drop 3))

/-- A line that begins or ends a document. -/
def isAtDocumentLine (gs : List Glyph) : Bool := isDocumentLine '-' gs || isDocumentLine '.' gs

/-- The characters that pass a test, and the glyphs behind them. -/
def spanChars (test : Char → Bool) : List Glyph → List Char × List Glyph
  | [] => ([], [])
  | g :: gs =>
    if test g.char then
      let (cs, rest) := spanChars test gs
      (g.char :: cs, rest)
    else ([], g :: gs)

/-- The glyphs behind those whose characters pass a test. -/
def skipChars (test : Char → Bool) (gs : List Glyph) : List Glyph := (spanChars test gs).2

end RegexTree.Yaml
