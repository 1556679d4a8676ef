import RegexTree.Text.Hexadecimal
import RegexTree.Yaml.Glyph

/-!
# The text of scalars

Scalars that go over several lines are folded: a single line break becomes a space and of more than one the first is dropped.
Each reader gives the text of a scalar and the glyphs behind it.
-/

namespace RegexTree.Yaml

/-- White space inside a scalar: what stands in the line before the first break, and the breaks. -/
structure Interval where
  blanks : List Char := []
  breaks : List Char := []

namespace Interval

/-- The interval goes over the end of a line. -/
def isBroken (w : Interval) : Bool := !w.breaks.isEmpty

/-- The text the interval stands for. -/
def fold (w : Interval) : List Char :=
  match w.breaks with
  | [] => w.blanks
  | ['\n'] => [' ']
  | '\n' :: more => more
  | breaks => breaks

end Interval

/-- White space up to the next other character. In the lines after the first break white space is dropped; there a tab before
the column `indent` is refused. `isBroken` says whether a break has been passed. -/
def readInterval (indent : Int) (isBroken : Bool) : List Glyph → Option (Interval × List Glyph)
  | [] => some ({}, [])
  | g :: gs =>
    if isWhite g.char then
      if isBroken && (g.column : Int) < indent && g.char == '\t' then none
      else do
        let (w, rest) ← readInterval indent isBroken gs
        return (if isBroken then w else { w with blanks := g.char :: w.blanks }, rest)
    else if isBreak g.char then do
      let (w, rest) ← readInterval indent true gs
      return ({ w with breaks := g.char :: w.breaks }, rest)
    else some ({}, g :: gs)

/-! ## Plain scalars -/

/-- The brackets, braces and commas of flow collections. -/
def isFlowIndicator (c : Char) : Bool := c == ',' || c == '[' || c == ']' || c == '\x7b' || c == '\x7d'

/-- Characters of a plain scalar up to white space or an indicator. In a flow collection a colon must not stand before an
indicator. -/
def readPlainRun (inFlow : Bool) : List Glyph → Option (List Char × List Glyph)
  | [] => some ([], [])
  | g :: gs =>
    if isGap g.char then some ([], g :: gs)
    else if inFlow && g.char == ':' && (isFlowIndicator (peek gs) || peek gs == '?') then none
    else if (g.char == ':' && isGap (peek gs)) || (inFlow && isFlowIndicator g.char) then some ([], g :: gs)
    else do
      let (cs, rest) ← readPlainRun inFlow gs
      return (g.char :: cs, rest)

/-- The rest of a plain scalar behind a run of characters, and whether the scalar is followed by a line break. -/
def readPlainRest (inFlow : Bool) (indent : Int) : (fuel : Nat) → List Glyph → Option (List Char × Bool × List Glyph)
  | 0, _ => none
  | fuel + 1, gs =>
    if isWhite (peek gs) || isBreak (peek gs) then do
      let (w, rest) ← readInterval indent false gs
      if (!inFlow && (columnOf rest : Int) < indent) || isAtDocumentLine rest || peek rest == '#' then
        return ([], w.isBroken, rest)
      let (run, rest) ← readPlainRun inFlow rest
      if run.isEmpty then return ([], w.isBroken, rest)
      let (more, isBroken, rest) ← readPlainRest inFlow indent fuel rest
      return (w.fold ++ run ++ more, isBroken, rest)
    else some ([], false, gs)

/-- A plain scalar, and whether it is followed by a line break. -/
def readPlain (inFlow : Bool) (indent : Int) (gs : List Glyph) : Option (List Char × Bool × List Glyph) := do
  let (run, rest) ← readPlainRun inFlow gs
  let (more, isBroken, rest) ← readPlainRest inFlow indent (rest.length + 1) rest
  return (run ++ more, isBroken, rest)

/-! ## Quoted scalars -/

/-- The value of `count` hexadecimal digits, and the glyphs behind them. -/
def readHex : (count : Nat) → Nat → List Glyph → Option (Nat × List Glyph)
  | 0, n, gs => some (n, gs)
  | _ + 1, _, [] => none
  | count + 1, n, g :: gs => do readHex count (16 * n + (← Text.hexValue? g.char)) gs

/-- The character a short escape stands for. -/
def shortEscape? (c : Char) : Option Char :=
  match c with
  | '0' => some '\x00'
  | 'a' => some '\x07'
  | 'b' => some '\x08'
  | 't' => some '\t'
  | '\t' => some '\t'
  | 'n' => some '\n'
  | 'v' => some '\x0b'
  | 'f' => some '\x0c'
  | 'r' => some '\r'
  | 'e' => some '\x1b'
  | ' ' => some ' '
  | '"' => some '"'
  | '/' => some '/'
  | '\\' => some '\\'
  | 'N' => some '\u0085'
  | '_' => some '\u00a0'
  | 'L' => some '\u2028'
  | 'P' => some '\u2029'
  | _ => none

/-- The number of hexadecimal digits behind the letter of a long escape. -/
def escapeWidth? (c : Char) : Option Nat :=
  match c with
  | 'x' => some 2
  | 'u' => some 4
  | 'U' => some 8
  | _ => none

/-- The character an escape stands for, from behind its backslash. -/
def readEscape (gs : List Glyph) : Option (Char × List Glyph) :=
  match gs with
  | [] => none
  | g :: gs =>
    match escapeWidth? g.char with
    | some width => do
      let (n, rest) ← readHex width 0 gs
      guard (n.isValidChar)
      return (Char.ofNat n, rest)
    | none => (shortEscape? g.char).map (·, gs)

/-- Characters of a quoted scalar up to white space or the closing quote, and whether an escaped line break ends them. -/
def readQuotedRun (single : Bool) : (fuel : Nat) → List Glyph → Option (List Char × Bool × List Glyph)
  | 0, _ => none
  | _ + 1, [] => some ([], false, [])
  | fuel + 1, g :: gs =>
    if isGap g.char then some ([], false, g :: gs)
    else if single && g.char == '\'' && peek gs == '\'' then do
      let (cs, isEscaped, rest) ← readQuotedRun single fuel (gs.drop 1)
      return ('\'' :: cs, isEscaped, rest)
    else if g.char == (if single then '\'' else '"') then some ([], false, g :: gs)
    else if !single && g.char == '\\' then
      if isBreak (peek gs) then some ([], true, gs.drop 1)
      else do
        let (c, rest) ← readEscape gs
        let (cs, isEscaped, rest) ← readQuotedRun single fuel rest
        return (c :: cs, isEscaped, rest)
    else do
      let (cs, isEscaped, rest) ← readQuotedRun single fuel gs
      return (g.char :: cs, isEscaped, rest)

/-- White space in a quoted scalar. Behind an escaped line break the other breaks are kept and the blanks are dropped. -/
def quotedInterval (isEscaped : Bool) (w : Interval) : List Char := if isEscaped then w.breaks else w.fold

/-- A quoted scalar from behind its opening quote. No line of it may begin or end a document. -/
def readQuoted (single : Bool) : (fuel : Nat) → List Glyph → Option (List Char × List Glyph)
  | 0, _ => none
  | fuel + 1, gs => do
    guard (!isAtDocumentLine gs && peek gs != endMark)
    let (run, isEscaped, rest) ← readQuotedRun single (gs.length + 1) gs
    if peek rest == (if single then '\'' else '"') then return (run, rest.drop 1)
    let (w, rest) ← readInterval 0 isEscaped rest
    let (more, rest) ← readQuoted single fuel rest
    return (run ++ quotedInterval isEscaped w ++ more, rest)

/-! ## Block scalars -/

/-- What becomes of the line breaks at the end of a block scalar. -/
inductive Chomping where
  | strip | clip | keep
  deriving DecidableEq

/-- The header of a block scalar: what becomes of the last line breaks and the indentation, where it is stated. -/
structure BlockHeader where
  chomping : Chomping := .clip
  increment : Option Nat := none

/-- The sign of a header. -/
def chomping? (c : Char) : Option Chomping :=
  match c with
  | '+' => some .keep
  | '-' => some .strip
  | _ => none

/-- The digit of a header, and the glyphs behind it. A zero is refused. -/
def readIncrement (gs : List Glyph) : Option (Option Nat × List Glyph) :=
  if (peek gs).isDigit then
    if peek gs == '0' then none else some (some ((peek gs).toNat - '0'.toNat), gs.drop 1)
  else some (none, gs)

/-- The sign and the digit of a header in either order. -/
def readBlockHeader (gs : List Glyph) : Option (BlockHeader × List Glyph) := do
  match chomping? (peek gs) with
  | some chomping =>
    let (increment, rest) ← readIncrement (gs.drop 1)
    return ({ chomping, increment }, rest)
  | none =>
    let (increment, rest) ← readIncrement gs
    match increment, chomping? (peek rest) with
    | some n, some chomping => return ({ chomping, increment := some n }, rest.drop 1)
    | _, _ => return ({ increment }, rest)

/-- The glyphs of the next line, where only white space and a comment stand before it. -/
def finishLine (gs : List Glyph) : Option (List Glyph) :=
  let gs := skipChars isWhite gs
  let gs := if peek gs == '#' then skipChars (fun c => !isLineEnd c) gs else gs
  if isBreak (peek gs) then some (gs.drop 1) else if peek gs == endMark then some gs else none

/-- Indentation and empty lines up to the next line of content: the breaks, and the greatest column reached. An indentation of
zero is one that is still to be found. A tab must not stand for indentation. -/
def readIndentation (indent reached : Nat) : List Glyph → Option (List Char × Nat × List Glyph)
  | [] => some ([], reached, [])
  | g :: gs =>
    let isInside := indent == 0 || g.column < indent
    if isInside && g.char == ' ' then readIndentation indent reached gs
    else if isInside && g.char == '\t' then none
    else if isBreak g.char then do
      let (breaks, reached, rest) ← readIndentation indent (max reached g.column) gs
      return (g.char :: breaks, reached, rest)
    else some ([], max reached g.column, g :: gs)

/-- The text of the lines of a block scalar, and the line breaks behind it: the one that ends its last line, and those of empty
lines. `lastBreak` and `breaks` are those behind the lines that have been read, and `isMore` says that the last of these began
with white space. -/
def readBlockLines (literal : Bool) (indent : Nat) :
    (fuel : Nat) → (isMore : Bool) → (lastBreak breaks : List Char) → List Glyph →
      Option (List Char × List Char × List Char × List Glyph)
  | 0, _, _, _, _ => none
  | fuel + 1, isMore, lastBreak, breaks, gs =>
    if columnOf gs == indent && peek gs != endMark then do
      let isMoreNow := isWhite (peek gs)
      let isFolded := !literal && lastBreak == ['\n'] && !isMore && !isMoreNow
      let joint := if isFolded then (if breaks.isEmpty then [' '] else breaks) else lastBreak ++ breaks
      let (line, rest) := spanChars (fun c => !isLineEnd c) gs
      let (lastBreak, rest) := if isBreak (peek rest) then ([peek rest], rest.drop 1) else ([], rest)
      let (breaks, _, rest) ← readIndentation indent 0 rest
      let (text, last, more, rest) ← readBlockLines literal indent fuel isMoreNow lastBreak breaks rest
      return (joint ++ line ++ text, last, more, rest)
    else some ([], lastBreak, breaks, gs)

/-- A block scalar from behind its indicator, inside a collection of the given indentation. -/
def readBlock (literal : Bool) (parent : Int) (gs : List Glyph) : Option (List Char × List Glyph) := do
  let (header, rest) ← readBlockHeader gs
  let rest ← finishLine rest
  let base := parent.toNat
  let stated := match header.increment with
    | some n => base + n
    | none => 0
  let (breaks, reached, rest) ← readIndentation stated 0 rest
  let indent := if stated == 0 then max (max reached (parent + 1).toNat) 1 else stated
  let (text, last, more, rest) ← readBlockLines literal indent (rest.length + 1) false [] breaks rest
  return (
    match header.chomping with
    | .strip => text
    | .clip => text ++ last
    | .keep => text ++ last ++ more, rest)

end RegexTree.Yaml
