import RegexTree.Yaml.Token.Stream
import RegexTree.Proofs.Yaml.Escape
import RegexTree.Proofs.Yaml.Plain

/-!
# Steps of the lexer

Outside of flow collections and between the tokens a lexer knows the tokens it has made and the columns of the block collections
that are open (`Lexer.upTo`). `Lexer.Reaches` says that it comes from one such state and place to another, in no more steps than
there are characters between them. Each mark of the layout of a written document is one lemma: a key with its colon, the dash of
an item, the end of a line and the end of a collection.
-/

namespace RegexTree.Yaml

namespace Lexer

/-- The lexer that has made the tokens `done`, outside of flow collections and where no key is marked. -/
def upTo (done : List Token) (indent : Int) (outer : List Int) (allowsKey : Bool) : Lexer :=
  { tokens := done.reverse, count := done.length, indent, outer, allowsKey }

variable {done : List Token} {indent : Int} {outer : List Int} {allowsKey : Bool}

@[simp] theorem push_upTo (t : Token) : (upTo done indent outer allowsKey).push t = upTo (done ++ [t]) indent outer allowsKey := by
  simp [upTo, push]

@[simp] theorem allow_upTo (b : Bool) : (upTo done indent outer allowsKey).allow b = upTo done indent outer b := rfl

@[simp] theorem inFlow_upTo : (upTo done indent outer allowsKey).inFlow = false := rfl

@[simp] theorem indent_upTo : (upTo done indent outer allowsKey).indent = indent := rfl

@[simp] theorem allowsKey_upTo : (upTo done indent outer allowsKey).allowsKey = allowsKey := rfl

@[simp] theorem dropKey_upTo : (upTo done indent outer allowsKey).dropKey = some (upTo done indent outer allowsKey) := rfl

@[simp] theorem dropStale_upTo (g : Glyph) :
    (upTo done indent outer allowsKey).dropStale g = some (upTo done indent outer allowsKey) := rfl

/-- No collection ends at a column that is not further out than the innermost. -/
theorem endBlocks_eq_self {l : Lexer} {column : Int} (h : l.indent ≤ column) : l.endBlocks column = l := by
  have hn : ¬column < l.indent := Int.not_lt.2 h
  rw [endBlocks]
  split
  · rfl
  · cases l.outer with
    | nil => rfl
    | cons j outer => rw [endBlocksIn, if_neg hn]

/-- At a column further out than the innermost collection that one ends. -/
theorem endBlocks_upTo_cons {column j : Int} (h : column < indent) :
    (upTo done indent (j :: outer) allowsKey).endBlocks column =
      (upTo (done ++ [.blockEnd]) j outer allowsKey).endBlocks column := by
  rw [endBlocks, inFlow_upTo, if_neg (by decide), endBlocks, inFlow_upTo, if_neg (by decide)]
  show endBlocksIn column _ (j :: outer) = endBlocksIn column _ outer
  rw [endBlocksIn, indent_upTo, if_pos h, push_upTo]
  rfl

/-- From a state and a place a lexer comes to another state and place: it makes the same tokens from both on, and the steps
between them are no more than the characters. -/
def Reaches (l : Lexer) (gs : List Glyph) (l' : Lexer) (gs' : List Glyph) : Prop :=
  ∃ n, gs'.length + n ≤ gs.length ∧ ∀ fuel, run (fuel + n) l gs = run fuel l' gs'

variable {l l' l'' : Lexer} {gs gs' gs'' : List Glyph}

theorem Reaches.refl (l : Lexer) (gs : List Glyph) : Reaches l gs l gs := ⟨0, Nat.le_refl _, fun _ => rfl⟩

theorem Reaches.trans (h : Reaches l gs l' gs') (h' : Reaches l' gs' l'' gs'') : Reaches l gs l'' gs'' := by
  obtain ⟨n, hn, hr⟩ := h
  obtain ⟨n', hn', hr'⟩ := h'
  refine ⟨n' + n, by omega, fun fuel => ?_⟩
  rw [← Nat.add_assoc, hr, hr']

/-- From a state and a place a lexer comes to another state and to the line in which the text goes on. -/
abbrev ReachesLine (l : Lexer) (gs : List Glyph) (l' : Lexer) (rest : List Char) : Prop :=
  ∃ q : Position, q.column = indentation rest ∧ Reaches l gs l' (glyphs q (content rest))

theorem Reaches.trans_line {rest : List Char} (h : Reaches l gs l' gs') (h' : ReachesLine l' gs' l'' rest) :
    ReachesLine l gs l'' rest := by
  obtain ⟨q, hq, hr⟩ := h'
  exact ⟨q, hq, h.trans hr⟩

/-! ## Between tokens -/

/-- A token may begin with the character: it is no white space, no line break and no number sign. -/
def beginsToken (c : Char) : Bool := !(isBreak c || c == '#' || c == ' ' || c == '\t' || c == byteOrderMark)

/-- A new line begins a token. -/
theorem beginsToken_of_beginsLine {c : Char} (h : beginsLine c = true) : beginsToken c = true := by
  have hb := notBreak_of_notGap (notGap_of_beginsLine h)
  have h1 := ne_of_beginsLine (d := '#') h (by decide)
  have h2 := ne_of_beginsLine (d := ' ') h (by decide)
  have h3 := ne_of_beginsLine (d := '\t') h (by decide)
  have h4 := ne_of_beginsLine (d := byteOrderMark) h (by decide)
  simp [beginsToken, hb, h1, h2, h3, h4]

/-- Where a text resumes a token begins, or the text is at its end. -/
theorem beginsToken_of_resumes {n : Nat} {rest : List Char} (h : Resumes n rest) : beginsToken (first (content rest)) = true := by
  rcases h.2 with rfl | hb
  · decide
  · exact beginsToken_of_beginsLine hb

/-- Nothing is skipped where a token begins. -/
theorem toNextToken_begins {cs : List Char} (h : beginsToken (first cs) = true) (inFlow allowsKey : Bool) (p : Position) :
    toNextToken inFlow false allowsKey (glyphs p cs) = (allowsKey, glyphs p cs) := by
  simp only [beginsToken, Bool.not_eq_true', Bool.or_eq_false_iff, beq_eq_false_iff_ne] at h
  obtain ⟨⟨⟨⟨hb, hc⟩, hs⟩, ht⟩, hm⟩ := h
  obtain ⟨gs, hgs⟩ := glyphs_eq_cons p cs
  rw [hgs, toNextToken]
  by_cases he : first cs = endMark
  · have hbe : isBreak endMark = false := by decide
    simp [hbe, he]
  · simp [hb, he, hc, hs, ht, hm]

/-- Spaces are skipped. -/
theorem toNextToken_spaces (inFlow allowsKey : Bool) (n : Nat) (cs : List Char) (p : Position) :
    toNextToken inFlow false allowsKey (glyphs p (spaces n ++ cs)) =
      toNextToken inFlow false allowsKey (glyphs (p.afterAll (spaces n)) cs) := by
  induction n generalizing p with
  | zero => rfl
  | succ n ih =>
    have hs : spaces (n + 1) = ' ' :: spaces n := rfl
    have hb : isBreak ' ' = false := by decide
    rw [hs, List.cons_append, glyphs, toNextToken, Position.afterAll_cons, ← ih]
    simp [hb, endMark]

/-- What is skipped before a token may be left out. -/
theorem Reaches.skip {b : Bool} (hl : gs'.length ≤ gs.length) (h : toNextToken false false allowsKey gs = (b, gs'))
    (h' : toNextToken false false b gs' = (b, gs')) :
    Reaches (upTo done indent outer allowsKey) gs (upTo done indent outer b) gs' := by
  refine ⟨0, hl, fun fuel => ?_⟩
  cases fuel with
  | zero => rfl
  | succ fuel =>
    rw [Nat.add_zero, run, run, inFlow_upTo, inFlow_upTo, allowsKey_upTo, allowsKey_upTo, h, h']
    rfl

/-- Spaces before a token are skipped. -/
theorem Reaches.spaces {cs : List Char} (h : beginsToken (first cs) = true) (n : Nat) (p : Position) :
    Reaches (upTo done indent outer allowsKey) (glyphs p (spaces n ++ cs)) (upTo done indent outer allowsKey)
      (glyphs (p.afterAll (spaces n)) cs) := by
  refine .skip (by simp) ?_ (toNextToken_begins h _ _ _)
  rw [toNextToken_spaces, toNextToken_begins h]

/-- At the end of a line the text resumes in the next, where a key may begin. -/
theorem Reaches.line {n : Nat} {rest : List Char} (h : Resumes n rest) (p : Position) :
    ReachesLine (upTo done indent outer allowsKey) (glyphs p ('\n' :: rest)) (upTo done indent outer true) rest := by
  have hb : ∀ c ∈ ['\n'], isBreak c = true := List.all_eq_true.1 (by decide)
  have ht := beginsToken_of_resumes h
  have hr := spaces_append_content rest
  refine ⟨_, column_line (List.cons_ne_nil _ _) hb (indentation rest) p, .skip ?_ ?_ (toNextToken_begins ht _ _ _)⟩
  · have hl := congrArg List.length hr
    simp only [List.length_append] at hl
    simp only [length_glyphs, List.length_cons]
    omega
  · have hs : toNextToken false false allowsKey (glyphs p ('\n' :: rest)) =
        toNextToken false false true (glyphs (p.after '\n') rest) := by
      rw [glyphs, toNextToken]
      simp [show isBreak '\n' = true from rfl]
    have hk := toNextToken_spaces false true (indentation rest) (content rest) (p.after '\n')
    rw [hr] at hk
    rw [hs, hk, toNextToken_begins ht]
    rfl

/-- Where the text resumes further out than the innermost collection, that one ends. -/
theorem Reaches.blockEnd {cs : List Char} (h : beginsToken (first cs) = true) {p : Position} {j : Int}
    (hc : (p.column : Int) < indent) :
    Reaches (upTo done indent (j :: outer) allowsKey) (glyphs p cs) (upTo (done ++ [.blockEnd]) j outer allowsKey)
      (glyphs p cs) := by
  refine ⟨0, Nat.le_refl _, fun fuel => ?_⟩
  cases fuel with
  | zero => rfl
  | succ fuel =>
    obtain ⟨gs, hgs⟩ := glyphs_eq_cons p cs
    rw [Nat.add_zero, run, run, inFlow_upTo, inFlow_upTo, allowsKey_upTo, allowsKey_upTo, toNextToken_begins h, hgs]
    simp only [allow_upTo, dropStale_upTo, Option.bind_eq_bind, Option.bind_some, Position.column_glyph,
      endBlocks_upTo_cons hc]

/-! ## Tokens -/

/-- A step makes a token of what begins with a character, where nothing that is marked is stale. -/
theorem Reaches.step {c : Char} {cs : List Char} {p : Position} (hb : beginsToken c = true) (he : c ≠ endMark)
    (hd : l.dropStale (p.glyph c) = some l) (hi : l.indent ≤ p.column)
    (hs : l.step (p.glyph c) (glyphs (p.after c) cs) = some (l', gs')) (hl : gs'.length ≤ cs.length + 1) :
    Reaches l (glyphs p (c :: cs)) l' gs' := by
  refine ⟨1, by simpa using hl, fun fuel => ?_⟩
  have ha : l.allow l.allowsKey = l := rfl
  have hend : l.endBlocks p.column = l := endBlocks_eq_self hi
  have ht : toNextToken l.inFlow false l.allowsKey (glyphs p (c :: cs)) = (l.allowsKey, p.glyph c :: glyphs (p.after c) cs) :=
    toNextToken_begins (show beginsToken (first (c :: cs)) = true from hb) l.inFlow l.allowsKey p
  rw [run, ht]
  simp only [ha, hd, Option.bind_eq_bind, Option.bind_some, Position.column_glyph, hend, Position.char_glyph, he, if_false, hs]

/-- A character that begins a plain scalar: it is no gap and none of the indicators that may not come first. A dash, a question
mark and a colon may, with no gap behind them. -/
structure BeginsPlain (c next : Char) : Prop where
  notGap : isGap c = false
  notLeading : ['#', ',', '[', ']', '\x7b', '\x7d', '&', '*', '!', '|', '>', '\'', '"', '%', '@', '`'].contains c = false
  next_notGap : c = '?' ∨ c = ':' ∨ c = '-' → isGap next = false

/-- The lexer that has made the tokens `done` and marked the beginning of a key, or not. -/
def marked (done : List Token) (indent : Int) (outer : List Int) (allowsKey : Bool) (keyMark : Option KeyMark) : Lexer :=
  { upTo done indent outer allowsKey with keyMark }

/-- The mark of a key that begins at a glyph, behind the tokens `done`, if one may begin there. -/
def markAt (done : List Token) (indent : Int) (allowsKey : Bool) (g : Glyph) : Option KeyMark :=
  if allowsKey then some { number := done.length, place := g, isRequired := indent == (g.column : Int) } else none

/-- A key is marked where one may begin. -/
theorem markKey_upTo (g : Glyph) : (upTo done indent outer allowsKey).markKey g =
    some (marked done indent outer allowsKey (markAt done indent allowsKey g)) := by
  cases allowsKey <;> rfl

/-- What begins a plain scalar is read as one. -/
theorem step_plain {g : Glyph} {gs : List Glyph} (h : BeginsPlain g.char (peek gs))
    (hd : isAtDocumentLine (g :: gs) = false) :
    (upTo done indent outer allowsKey).step g gs = do
      let (text, isBroken, rest) ← readPlain false (indent + 1) (g :: gs)
      return (marked (done ++ [.scalar (String.ofList text) .plain]) indent outer isBroken (markAt done indent allowsKey g),
        rest) := by
  obtain ⟨hg, hl, hn⟩ := h
  simp only [isAtDocumentLine, Bool.or_eq_false_iff] at hd
  simp only [List.contains_cons, List.contains_nil, Bool.or_false, Bool.or_eq_false_iff, beq_eq_false_iff_ne] at hl
  obtain ⟨h1, h2, h3, h4, h5, h6, h7, h8, h9, h10, h11, h12, h13, h14, h15, h16⟩ := hl
  have hdash : ¬(g.char = '-' ∧ isGap (peek gs) = true) := fun h => by simp [hn (Or.inr (Or.inr h.1))] at h
  have hquestion : ¬(g.char = '?' ∧ isGap (peek gs) = true) := fun h => by simp [hn (Or.inl h.1)] at h
  have hcolon : ¬(g.char = ':' ∧ isGap (peek gs) = true) := fun h => by simp [hn (Or.inr (Or.inl h.1))] at h
  have hbegins : beginsPlain false g.char (peek gs) = true := by
    simp only [beginsPlain, hg, Bool.false_or, Bool.not_false, Bool.true_and, Bool.or_eq_true, Bool.not_eq_true',
      Bool.and_eq_true, beq_iff_eq]
    by_cases hi : g.char = '?' ∨ g.char = ':' ∨ g.char = '-'
    · have hw := notWhite_of_notGap (hn hi)
      rcases hi with hi | hi | hi
      · exact Or.inr ⟨Or.inl hi, hn (Or.inl hi)⟩
      · exact Or.inr ⟨Or.inr hi, hn (Or.inr (Or.inl hi))⟩
      · exact Or.inl (Or.inr ⟨hi, hw⟩)
    · simp only [not_or] at hi
      exact Or.inl (Or.inl (by simp [isIndicator, *]))
  simp only [Lexer.step, inFlow_upTo, hd.1, hd.2, h2, h3, h4, h5, h6, h7, h8, h9, h10, h11, h12, h13, h14, hdash, hquestion,
    hcolon, hbegins, Bool.false_or, Bool.false_eq_true, and_false, false_and, or_false, if_false, if_true]
  rw [markKey_upTo]
  generalize markAt done indent allowsKey g = keyMark
  have hpush : ∀ (isBroken : Bool) (t : Token), ((marked done indent outer allowsKey keyMark).allow isBroken).push t =
      marked (done ++ [t]) indent outer isBroken keyMark := fun isBroken t => by simp [marked, upTo, push, allow]
  have hflow : (marked done indent outer allowsKey keyMark).inFlow = false := rfl
  have hindent : (marked done indent outer allowsKey keyMark).indent = indent := rfl
  simp only [Option.bind_eq_bind, Option.bind_some, hflow, hindent, hpush]

/-! ## Keys -/

/-- A key may be so long that its colon is still found. -/
theorem dropStale_marked {done : List Token} {mark : KeyMark} {g : Glyph} (hl : g.line ≤ mark.place.line)
    (hi : g.index ≤ mark.place.index + 1024) :
    (marked done indent outer allowsKey (some mark)).dropStale g = some (marked done indent outer allowsKey (some mark)) := by
  have hs : isStale g mark = false := by
    simp only [isStale, Bool.or_eq_false_iff, decide_eq_false_iff_not]
    omega
  simp only [dropStale, marked, freshMark, hs, upTo]
  rfl

/-- At the colon behind a marked scalar a key is put in before it, and the beginning of a mapping where one begins. -/
theorem valueIndicator_marked {text : Token} {mark : KeyMark} (hn : mark.number = done.length) (g : Glyph) :
    (marked (done ++ [text]) indent outer allowsKey (some mark)).valueIndicator g =
      some (if (mark.place.column : Int) ≤ indent then upTo (done ++ [.key, text, .value]) indent outer false
        else upTo (done ++ [.blockMappingStart, .key, text, .value]) mark.place.column (indent :: outer) false) := by
  have hk : (marked (done ++ [text]) indent outer allowsKey (some mark)).insert mark.number .key =
      marked (done ++ [.key, text]) indent outer allowsKey (some mark) := by
    simp [insert, marked, upTo, hn]
  have hb : (marked (done ++ [.key, text]) indent outer allowsKey (some mark)).insert mark.number .blockMappingStart =
      marked (done ++ [.blockMappingStart, .key, text]) indent outer allowsKey (some mark) := by
    simp [insert, marked, upTo, hn]
  have hf : (marked (done ++ [.key, text]) indent outer allowsKey (some mark)).inFlow = false := rfl
  have hi : (marked (done ++ [.key, text]) indent outer allowsKey (some mark)).indent = indent := rfl
  have hm : (marked (done ++ [text]) indent outer allowsKey (some mark)).keyMark = some mark := rfl
  simp only [valueIndicator, hm, hk, beginBlock, hf, hi, hb, Bool.false_or, decide_eq_true_eq]
  split
  · simp [marked, upTo, push]
  · simp [marked, upTo, push]

/-- A colon with a gap behind it stands behind a key. -/
theorem step_colon {l : Lexer} {g : Glyph} {gs : List Glyph} (hc : g.char = ':') (hg : isGap (peek gs) = true) :
    l.step g gs = (l.valueIndicator g).map (·, gs) := by
  have hd : ∀ mark, mark ≠ ':' → isDocumentLine mark (g :: gs) = false := by
    intro mark hm
    simp [isDocumentLine, beginsWith, hc, Ne.symm hm]
  simp only [Lexer.step, hd '-' (by decide), hd '.' (by decide), hc, hg]
  simp

/-- A letter or a digit begins a plain scalar. -/
theorem beginsPlain_of_isAlphanum {c : Char} (h : c.isAlphanum = true) (next : Char) : BeginsPlain c next where
  notGap := notGap_of_isGraphic (isGraphic_of_isAlphanum h)
  notLeading := by
    rw [Bool.eq_false_iff, ne_eq, List.contains_iff_mem]
    intro hm
    have hn : ∀ d ∈ ['#', ',', '[', ']', '\x7b', '\x7d', '&', '*', '!', '|', '>', '\'', '"', '%', '@', '`'],
        (!d.isAlphanum) = true := List.all_eq_true.1 (by decide)
    have hc := hn c hm
    rw [h] at hc
    cases hc
  next_notGap := by
    rintro (rfl | rfl | rfl) <;> cases h

/-- No line that begins with a letter begins or ends a document. -/
theorem notDocumentLine_of_isAlpha {c : Char} (h : c.isAlpha = true) (p : Position) (cs : List Char) :
    isAtDocumentLine (glyphs p (c :: cs)) = false := by
  have h1 : c ≠ '-' := by
    rintro rfl
    cases h
  have h2 : c ≠ '.' := by
    rintro rfl
    cases h
  simp [isAtDocumentLine, isDocumentLine, glyphs, beginsWith, h1, h2]

/-- The colon behind a marked scalar of the same line is reached. -/
theorem Reaches.colon {text : Token} (mark : KeyMark) (hn : mark.number = done.length) {p : Position} {rest : List Char}
    (hi : indent ≤ p.column) (hl : p.line ≤ mark.place.line) (hx : p.index ≤ mark.place.index + 1024)
    (hr : isGap (first rest) = true) :
    Reaches (marked (done ++ [text]) indent outer allowsKey (some mark)) (glyphs p (':' :: rest))
      (if (mark.place.column : Int) ≤ indent then upTo (done ++ [.key, text, .value]) indent outer false
        else upTo (done ++ [.blockMappingStart, .key, text, .value]) mark.place.column (indent :: outer) false)
      (glyphs (p.after ':') rest) := by
  refine .step (by decide) (by decide) (dropStale_marked hl hx) hi ?_ (by simp)
  rw [step_colon rfl (by rw [peek_glyphs, hr]), valueIndicator_marked hn]
  rfl

/-- A key and its colon are reached. Where the key stands further in than the innermost collection, a mapping begins. -/
theorem Reaches.key {key : List Char} (hk : ∀ c ∈ key, c.isAlpha = true) (hne : key ≠ []) (hl : key.length ≤ 1024)
    {rest : List Char} (hr : isGap (first rest) = true) (p : Position) (hi : indent ≤ p.column) :
    Reaches (upTo done indent outer true) (glyphs p (key ++ ':' :: rest))
      (if (p.column : Int) ≤ indent then
        upTo (done ++ [.key, .scalar (String.ofList key) .plain, .value]) indent outer false
      else
        upTo (done ++ [.blockMappingStart, .key, .scalar (String.ofList key) .plain, .value]) p.column (indent :: outer) false)
      (glyphs ((p.afterAll key).after ':') rest) := by
  obtain ⟨c, key, rfl⟩ := List.exists_cons_of_ne_nil hne
  have hc := hk c (by simp)
  have hnb : ∀ d ∈ c :: key, isBreak d = false := fun d hd =>
    notBreak_of_notGap (notGap_of_beginsLine (by simp [beginsLine, hk d hd]))
  have hread := readPlain_key hk hr (indent + 1) p
  have hs : (upTo done indent outer true).step (p.glyph c) (glyphs (p.after c) (key ++ ':' :: rest)) =
      some (marked (done ++ [.scalar (String.ofList (c :: key)) .plain]) indent outer false
        (markAt done indent true (p.glyph c)), glyphs (p.afterAll (c :: key)) (':' :: rest)) := by
    rw [step_plain (beginsPlain_of_isAlphanum (by simp [Char.isAlphanum, hc]) _)
      (notDocumentLine_of_isAlpha hc p (key ++ ':' :: rest))]
    rw [List.cons_append, glyphs] at hread
    rw [hread]
    rfl
  have hpos := Position.afterAll_of_notBreak p hnb
  rw [List.cons_append]
  refine (Reaches.step (beginsToken_of_beginsLine (by simp [beginsLine, hc])) (by rintro rfl; cases hc) rfl hi hs ?_).trans ?_
  · simp only [length_glyphs, List.length_append, List.length_cons]
    omega
  · refine Reaches.colon { number := done.length, place := p.glyph c, isRequired := indent == (p.column : Int) } rfl ?_ ?_ ?_ hr
    · rw [hpos]
      exact Int.le_trans hi (Int.ofNat_le.2 (Nat.le_add_right _ _))
    · rw [hpos]
      exact Nat.le_refl _
    · rw [hpos]
      exact Nat.add_le_add_left hl _

/-! ## Items -/

/-- The dash of an item is reached in a list that has the column of the mapping around it, and the item behind it. -/
theorem Reaches.dash {p : Position} (hi : indent = p.column) {rest : List Char} (hr : beginsToken (first rest) = true) :
    Reaches (upTo done indent outer true) (glyphs p ('-' :: ' ' :: rest)) (upTo (done ++ [.blockEntry]) indent outer true)
      (glyphs ((p.after '-').after ' ') rest) := by
  have hd : ∀ mark, isDocumentLine mark (p.glyph '-' :: glyphs (p.after '-') (' ' :: rest)) = false := by
    intro mark
    by_cases hm : mark = ' '
    · simp [isDocumentLine, beginsWith, hm]
    · simp [isDocumentLine, beginsWith, glyphs, Ne.symm hm]
  have hb : (upTo done indent outer true).blockIndicator (p.glyph '-') .blockSequenceStart .blockEntry true =
      some (upTo (done ++ [.blockEntry]) indent outer true) := by
    have hc : (p.column : Int) ≤ indent := by omega
    simp [blockIndicator, beginBlock, hc, guard]
  have hs : (upTo done indent outer true).step (p.glyph '-') (glyphs (p.after '-') (' ' :: rest)) =
      some (upTo (done ++ [.blockEntry]) indent outer true, glyphs (p.after '-') (' ' :: rest)) := by
    have hg : isGap ' ' = true := by decide
    simp [Lexer.step, hd, hg, hb]
  refine (Reaches.step (by decide) (by decide) rfl (by simp [hi]) hs (by simp)).trans ?_
  exact Reaches.spaces hr 1 (p.after '-')

/-! ## Flow collections -/

/-- A flow collection without parts is reached behind its brackets. -/
theorem Reaches.flow {b e : Char} {start stop : Token}
    (h : (b = '[' ∧ e = ']' ∧ start = .flowSequenceStart ∧ stop = .flowSequenceEnd) ∨
      (b = '\x7b' ∧ e = '\x7d' ∧ start = .flowMappingStart ∧ stop = .flowMappingEnd))
    {p : Position} (hi : indent ≤ p.column) (rest : List Char) :
    Reaches (upTo done indent outer false) (glyphs p (b :: e :: rest)) (upTo (done ++ [start, stop]) indent outer false)
      (glyphs ((p.after b).after e) rest) := by
  let inside : Lexer := { upTo (done ++ [start]) indent outer true with flows := [none] }
  have hopen : (upTo done indent outer false).openFlow (p.glyph b) start = some inside := by
    simp [openFlow, markKey, upTo, push, inside]
  have hclose : inside.closeFlow stop = some (upTo (done ++ [start, stop]) indent outer false) := by
    simp [closeFlow, dropKey, upTo, push, inside]
  have hcol : indent ≤ (p.after b).column := by
    rcases h with ⟨rfl, -⟩ | ⟨rfl, -⟩ <;> exact Int.le_trans hi (Int.ofNat_le.2 (Nat.le_succ _))
  have hd : ∀ mark c q cs, mark = '-' ∨ mark = '.' → c ≠ '-' → c ≠ '.' →
      isDocumentLine mark (Position.glyph q c :: cs) = false := by
    rintro mark c q cs (rfl | rfl) h1 h2 <;> simp [isDocumentLine, beginsWith, h1, h2]
  have hs : (upTo done indent outer false).step (p.glyph b) (glyphs (p.after b) (e :: rest)) =
      some (inside, glyphs (p.after b) (e :: rest)) := by
    rcases h with ⟨rfl, rfl, rfl, rfl⟩ | ⟨rfl, rfl, rfl, rfl⟩ <;> simp [Lexer.step, hd, hopen]
  have hs' : inside.step ((p.after b).glyph e) (glyphs ((p.after b).after e) rest) =
      some (upTo (done ++ [start, stop]) indent outer false, glyphs ((p.after b).after e) rest) := by
    rcases h with ⟨rfl, rfl, rfl, rfl⟩ | ⟨rfl, rfl, rfl, rfl⟩ <;> simp [Lexer.step, hd, hclose]
  have hb : beginsToken b = true ∧ b ≠ endMark ∧ beginsToken e = true ∧ e ≠ endMark := by
    rcases h with ⟨rfl, rfl, -⟩ | ⟨rfl, rfl, -⟩ <;> decide
  exact (Reaches.step hb.1 hb.2.1 rfl hi hs (by simp)).trans (Reaches.step hb.2.2.1 hb.2.2.2 rfl hcol hs' (by simp))

/-! ## The end -/

/-- At the end of a text whose only open collection stands in the first column the tokens are complete. -/
theorem run_end {fuel : Nat} {p : Position} (hp : p.column = 0) :
    run (fuel + 1) (upTo done 0 [-1] true) (glyphs p []) = some (done ++ [.blockEnd, .streamEnd]) := by
  have ht : toNextToken false false true (glyphs p []) = (true, [p.glyph endMark]) :=
    toNextToken_begins (show beginsToken (first []) = true by decide) false true p
  have hend : (upTo done 0 [-1] true).endBlocks (p.column : Int) = upTo done 0 [-1] true :=
    endBlocks_eq_self (by simp [hp])
  have hall : (upTo done 0 [-1] true).endAll = some (upTo (done ++ [.blockEnd]) (-1) [] false) := by
    have h : (upTo (done ++ [.blockEnd]) (-1) [] true).endBlocks (-1) = upTo (done ++ [.blockEnd]) (-1) [] true := rfl
    rw [endAll, endBlocks_upTo_cons (by decide), h]
    rfl
  rw [run, inFlow_upTo, allowsKey_upTo, ht]
  simp only [allow_upTo, dropStale_upTo, Option.bind_eq_bind, Option.bind_some, Position.column_glyph, hend,
    Position.char_glyph, if_true, hall, push_upTo]
  simp [upTo]

end Lexer

end RegexTree.Yaml
