import RegexTree.Yaml.Token.Tag

/-!
# The tokens of a text

The layout of a text decides where block collections begin and end. What stands before a colon may have been a key, so the
place of each token that could begin one is kept, and the tokens that a key calls for are put in there when the colon comes. A
key must lie in one line and be at most 1024 characters long.
-/

namespace RegexTree.Yaml

/-- A token that may turn out to begin a key: its number, its place, and whether nothing else could stand there. -/
structure KeyMark where
  number : Nat
  place : Glyph
  isRequired : Bool

/-- What a lexer knows of the text before it. -/
structure Lexer where
  /-- The tokens, the last one first. -/
  tokens : List Token := []
  /-- The number of tokens. -/
  count : Nat := 0
  /-- The column of the innermost block collection, -1 outside of all. -/
  indent : Int := -1
  /-- The columns of the collections around it, the innermost first. -/
  outer : List Int := []
  /-- The flow collections that are open, the innermost first, each with the mark of the key it began behind. -/
  flows : List (Option KeyMark) := []
  /-- The mark of the key that may come next. -/
  keyMark : Option KeyMark := none
  /-- A key may begin here. -/
  allowsKey : Bool := true

namespace Lexer

/-- The text is inside a flow collection. -/
def inFlow (l : Lexer) : Bool := !l.flows.isEmpty

/-- One more token. -/
def push (t : Token) (l : Lexer) : Lexer := { l with tokens := t :: l.tokens, count := l.count + 1 }

/-- A token put in before the token of a number. -/
def insert (number : Nat) (t : Token) (l : Lexer) : Lexer :=
  let (later, earlier) := l.tokens.splitAt (l.count - number)
  { l with tokens := later ++ t :: earlier, count := l.count + 1 }

/-- A block collection begins at `column`, unless one of that column or a greater one is open. -/
def beginBlock (column number : Nat) (t : Token) (l : Lexer) : Lexer :=
  if l.inFlow || (column : Int) ≤ l.indent then l
  else { l.insert number t with indent := column, outer := l.indent :: l.outer }

/-- The block collections end that lie further in than `column`, of which `outer` lists those around the innermost. -/
def endBlocksIn (column : Int) (l : Lexer) : List Int → Lexer
  | [] => l
  | indent :: outer =>
    if column < l.indent then endBlocksIn column { l.push .blockEnd with indent, outer } outer else l

/-- The block collections end that lie further in than `column`. -/
def endBlocks (column : Int) (l : Lexer) : Lexer := if l.inFlow then l else endBlocksIn column l l.outer

/-- No key begins at the mark, which fails where one has to. -/
def dropKey (l : Lexer) : Option Lexer :=
  match l.keyMark with
  | some mark => if mark.isRequired then none else some { l with keyMark := none }
  | none => some l

/-- A key may begin at a glyph, if one may begin here at all. -/
def markKey (g : Glyph) (l : Lexer) : Option Lexer :=
  if l.allowsKey then do
    let l ← l.dropKey
    let isRequired := !l.inFlow && l.indent == (g.column : Int)
    return { l with keyMark := some { number := l.count, place := g, isRequired } }
  else some l

/-- The mark is too far from a glyph to be the beginning of a key. -/
def isStale (g : Glyph) (mark : KeyMark) : Bool := mark.place.line < g.line || mark.place.index + 1024 < g.index

/-- The mark unless it is stale, which fails where a key has to be. -/
def freshMark (g : Glyph) : Option KeyMark → Option (Option KeyMark)
  | some mark =>
    if isStale g mark then (if mark.isRequired then none else some none) else some (some mark)
  | none => some none

/-- The marks that are not stale. -/
def dropStale (g : Glyph) (l : Lexer) : Option Lexer := do
  return { l with keyMark := ← freshMark g l.keyMark, flows := ← l.flows.mapM (freshMark g) }

/-- A key may or may not begin at the next token. -/
def allow (allowsKey : Bool) (l : Lexer) : Lexer := { l with allowsKey }

/-- A flow collection begins at a glyph. -/
def openFlow (g : Glyph) (t : Token) (l : Lexer) : Option Lexer := do
  let l ← l.markKey g
  return { l.push t with flows := l.keyMark :: l.flows, keyMark := none, allowsKey := true }

/-- A flow collection ends. -/
def closeFlow (t : Token) (l : Lexer) : Option Lexer := do
  let l ← l.dropKey
  let (keyMark, flows) :=
    match l.flows with
    | mark :: flows => (mark, flows)
    | [] => (none, [])
  return { l with keyMark, flows, allowsKey := false }.push t

/-- A mark of the block layout stands at a glyph: a dash, or the question mark or colon of a key that is not marked. -/
def blockIndicator (g : Glyph) (collection t : Token) (allowsKey : Bool) (l : Lexer) : Option Lexer := do
  guard (l.inFlow || l.allowsKey)
  let l ← (l.beginBlock g.column l.count collection).dropKey
  return (l.allow allowsKey).push t

/-- A colon stands at a glyph: what was marked is a key, or the key is empty. -/
def valueIndicator (g : Glyph) (l : Lexer) : Option Lexer :=
  match l.keyMark with
  | some mark =>
    let l := (l.insert mark.number .key).beginBlock mark.place.column mark.number .blockMappingStart
    some ({ l with keyMark := none, allowsKey := false }.push .value)
  | none => do
    guard (l.inFlow || l.allowsKey)
    return ((l.beginBlock g.column l.count .blockMappingStart).allow (!l.inFlow)).push .value

/-- The whole layout ends, as before a directive or the mark of a document. -/
def endAll (l : Lexer) : Option Lexer := do
  let l ← (l.endBlocks (-1)).dropKey
  return l.allow false

end Lexer

/-- The glyphs from the next token on, and whether a key may begin there: a line break outside of flow collections allows it. A
tab counts as white space only where no key may begin, a mark of byte order only in the first column, and both take a column. -/
def toNextToken (inFlow isComment allowsKey : Bool) : List Glyph → Bool × List Glyph
  | [] => (allowsKey, [])
  | g :: gs =>
    if isBreak g.char then toNextToken inFlow false (allowsKey || !inFlow) gs
    else if g.char == endMark then (allowsKey, g :: gs)
    else if isComment || g.char == '#' then toNextToken inFlow true allowsKey gs
    else if g.char == ' ' || (g.char == '\t' && (inFlow || !allowsKey)) || (g.char == byteOrderMark && g.column == 0) then
      toNextToken inFlow false allowsKey gs
    else (allowsKey, g :: gs)

/-- A character that no plain scalar begins with, at least not by itself. -/
def isIndicator (c : Char) : Bool :=
  ['-', '?', ':', ',', '[', ']', '\x7b', '\x7d', '#', '&', '*', '!', '|', '>', '\'', '"', '%', '@', '`'].contains c

/-- A plain scalar may begin with a character before another. -/
def beginsPlain (inFlow : Bool) (c next : Char) : Bool :=
  !(isGap c || isIndicator c) || (c == '-' && !isWhite next) || (!inFlow && (c == '?' || c == ':') && !isGap next)

/-- The next token, which begins at the glyph `g`, and the glyphs behind it. -/
def Lexer.step (l : Lexer) (g : Glyph) (gs : List Glyph) : Option (Lexer × List Glyph) :=
  let c := g.char
  let next := peek gs
  let isFree := l.inFlow || isGap next
  if g.column = 0 ∧ c = '%' then do
    let (t, rest) ← readDirective (g :: gs)
    return ((← l.endAll).push t, rest)
  else if isDocumentLine '-' (g :: gs) then do return ((← l.endAll).push .documentStart, gs.drop 2)
  else if isDocumentLine '.' (g :: gs) then do return ((← l.endAll).push .documentEnd, gs.drop 2)
  else if c = '[' then (l.openFlow g .flowSequenceStart).map (·, gs)
  else if c = '\x7b' then (l.openFlow g .flowMappingStart).map (·, gs)
  else if c = ']' then (l.closeFlow .flowSequenceEnd).map (·, gs)
  else if c = '\x7d' then (l.closeFlow .flowMappingEnd).map (·, gs)
  else if c = ',' then do return (((← l.dropKey).allow true).push .flowEntry, gs)
  else if c = '-' ∧ isGap next then (l.blockIndicator g .blockSequenceStart .blockEntry true).map (·, gs)
  else if c = '?' ∧ isFree then (l.blockIndicator g .blockMappingStart .key (!l.inFlow)).map (·, gs)
  else if c = ':' ∧ isFree then (l.valueIndicator g).map (·, gs)
  else if c = '*' then do
    let l ← l.markKey g
    let (name, rest) ← readAnchorName gs
    return ((l.allow false).push (.reference name), rest)
  else if c = '&' then do
    let l ← l.markKey g
    let (name, rest) ← readAnchorName gs
    return ((l.allow false).push (.anchor name), rest)
  else if c = '!' then do
    let l ← l.markKey g
    let (t, rest) ← readTag l.inFlow (g :: gs)
    return ((l.allow false).push t, rest)
  else if (c = '|' ∨ c = '>') ∧ !l.inFlow then do
    let l ← l.dropKey
    let (text, rest) ← readBlock (c == '|') l.indent gs
    return ((l.allow true).push (.scalar (String.ofList text) (if c = '|' then .literal else .folded)), rest)
  else if c = '\'' ∨ c = '"' then do
    let l ← l.markKey g
    let (text, rest) ← readQuoted (c == '\'') (gs.length + 1) gs
    return ((l.allow false).push (.scalar (String.ofList text) (if c = '\'' then .singleQuoted else .doubleQuoted)), rest)
  else if beginsPlain l.inFlow c next then do
    let l ← l.markKey g
    let (text, isBroken, rest) ← readPlain l.inFlow (l.indent + 1) (g :: gs)
    return ((l.allow isBroken).push (.scalar (String.ofList text) .plain), rest)
  else none

/-- The tokens from a place on. Each step reads one character at least, so the number of glyphs is fuel enough. -/
def Lexer.run : (fuel : Nat) → Lexer → List Glyph → Option (List Token)
  | 0, _, _ => none
  | fuel + 1, l, gs => do
    let (allowsKey, gs) := toNextToken l.inFlow false l.allowsKey gs
    match gs with
    | [] => none
    | g :: gs =>
      let l ← (l.allow allowsKey).dropStale g
      let l := l.endBlocks g.column
      if g.char = endMark then
        let l ← l.endAll
        return (l.push .streamEnd).tokens.reverse
      let (l, rest) ← l.step g gs
      run fuel l rest

/-- The tokens of a text. -/
def Token.ofChars? (cs : List Char) : Option (List Token) := do
  let gs ← Glyph.ofChars? cs
  Lexer.run (gs.length + 1) {} gs

end RegexTree.Yaml
