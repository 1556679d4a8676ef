import RegexTree.Yaml.Token
import RegexTree.Yaml.Token.Scalar

/-!
# Tags, anchors and directives

Each reader begins at the indicator and gives the token with the glyphs behind it.
-/

namespace RegexTree.Yaml

/-! ## Tags -/

/-- Letters, digits and the signs that a tag is written with. Commas and brackets belong to it only between angle brackets. -/
def isTagChar (isVerbatim : Bool) (c : Char) : Bool :=
  isWordChar c || [';', '/', '?', ':', '@', '&', '=', '+', '$', '.', '%', '!', '~', '*', '\'', '(', ')'].contains c ||
    (isVerbatim && (c == ',' || c == '[' || c == ']'))

/-- An octet that is written as a percent sign and two hexadecimal digits. -/
def readOctet : List Glyph → Option (Nat × List Glyph)
  | p :: a :: b :: rest => do
    guard (p.char == '%')
    return ((← Text.hexValue? a.char) * 16 + (← Text.hexValue? b.char), rest)
  | _ => none

/-- The octets of a character after the first, added to the value of that one. -/
def readContinuation : (count value : Nat) → List Glyph → Option (Nat × List Glyph)
  | 0, value, gs => some (value, gs)
  | count + 1, value, gs => do
    let (octet, rest) ← readOctet gs
    guard (octet / 64 == 2)
    readContinuation count (value * 64 + octet % 64) rest

/-- A character that is written as octets. -/
def readEscapedChar (gs : List Glyph) : Option (Char × List Glyph) := do
  let (first, rest) ← readOctet gs
  let (count, value) ←
    if first < 0x80 then some (0, first)
    else if first / 32 == 6 then some (1, first % 32)
    else if first / 16 == 14 then some (2, first % 16)
    else if first / 8 == 30 then some (3, first % 8)
    else none
  let (n, rest) ← readContinuation count value rest
  guard n.isValidChar
  return (Char.ofNat n, rest)

/-- The characters of a tag. -/
def readTagChars (isVerbatim : Bool) : (fuel : Nat) → List Glyph → Option (List Char × List Glyph)
  | 0, _ => none
  | _ + 1, [] => some ([], [])
  | fuel + 1, g :: gs =>
    if g.char == '%' then do
      let (c, rest) ← readEscapedChar (g :: gs)
      let (cs, rest) ← readTagChars isVerbatim fuel rest
      return (c :: cs, rest)
    else if isTagChar isVerbatim g.char then do
      let (cs, rest) ← readTagChars isVerbatim fuel gs
      return (g.char :: cs, rest)
    else some ([], g :: gs)

/-- An exclamation mark, letters and digits, and a second exclamation mark if there is one. -/
def readHandle (gs : List Glyph) : Option (List Char × List Glyph) :=
  if peek gs != '!' then none
  else
    let (word, rest) := spanChars isWordChar (gs.drop 1)
    if peek rest == '!' then some ('!' :: word ++ ['!'], rest.drop 1) else some ('!' :: word, rest)

/-- The handle of a tag and what stands behind it. A mark without a second one is the handle by itself and its word belongs to
the rest; alone it is the tag and there is no handle. -/
def readTagParts (gs : List Glyph) : Option ((List Char × List Char) × List Glyph) := do
  if peek (gs.drop 1) == '<' then
    let (suffix, rest) ← readTagChars true (gs.length + 1) (gs.drop 2)
    guard (!suffix.isEmpty && peek rest == '>')
    return (([], suffix), rest.drop 1)
  let (handle, rest) ← readHandle gs
  let (more, rest) ← readTagChars false (gs.length + 1) rest
  if 2 ≤ handle.length ∧ handle.getLast? = some '!' then
    guard (!more.isEmpty)
    return ((handle, more), rest)
  let suffix := handle.drop 1 ++ more
  return (if suffix.isEmpty then ([], ['!']) else (['!'], suffix), rest)

/-- A tag. White space must follow it, or in a flow collection a comma. -/
def readTag (inFlow : Bool) (gs : List Glyph) : Option (Token × List Glyph) := do
  let ((handle, suffix), rest) ← readTagParts gs
  guard (isGap (peek rest) || (inFlow && peek rest == ','))
  return (.tag handle suffix, rest)

/-! ## Anchors -/

/-- The name of an anchor or an alias from behind its indicator. -/
def readAnchorName (gs : List Glyph) : Option (String × List Glyph) := do
  let (name, rest) := spanChars isWordChar gs
  guard (!name.isEmpty && (isGap (peek rest) || ['?', ':', ',', ']', '\x7d', '%', '@', '`'].contains (peek rest)))
  return (String.ofList name, rest)

/-! ## Directives -/

/-- A number of at most nine digits. -/
def readVersionNumber (gs : List Glyph) : Option (Nat × List Glyph) := do
  let (digits, rest) := spanChars Char.isDigit gs
  guard (0 < digits.length ∧ digits.length ≤ 9)
  return (digits.foldl (fun n c => 10 * n + (c.toNat - '0'.toNat)) 0, rest)

/-- A directive: the version of the language or the meaning of a handle. -/
def readDirective (gs : List Glyph) : Option (Token × List Glyph) := do
  let (name, rest) := spanChars isWordChar (gs.drop 1)
  guard (isGap (peek rest))
  let rest := skipChars isWhite rest
  if name == ['Y', 'A', 'M', 'L'] then
    let (major, rest) ← readVersionNumber rest
    guard (peek rest == '.')
    let (minor, rest) ← readVersionNumber (rest.drop 1)
    return (.version major minor, ← finishLine rest)
  guard (name == ['T', 'A', 'G'])
  let (handle, rest) ← readHandle rest
  guard (handle == ['!'] || handle.getLast? == some '!')
  guard (isWhite (peek rest))
  let (start, rest) ← readTagChars true (gs.length + 1) (skipChars isWhite rest)
  guard (!start.isEmpty && isGap (peek rest))
  return (.tagHandle handle start, ← finishLine rest)

end RegexTree.Yaml
