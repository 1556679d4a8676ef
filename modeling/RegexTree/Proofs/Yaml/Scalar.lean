import RegexTree.Proofs.Yaml.Block
import RegexTree.Proofs.Yaml.Lexer
import RegexTree.Proofs.Yaml.Quoted

/-!
# Scalars behind a key

Whatever style a text is written in behind a key, the lexer makes one scalar of it and comes to the next line of the text around
it, where a key may begin (`Reaches.scalar`).
-/

namespace RegexTree.Yaml

/-! ## The end of the line -/

/-- A text that does not end with a line break gets one. -/
theorem endLine_of_notBreak {cs : List Char} (h : ∀ c ∈ cs.getLast?, isBreak c = false) : endLine cs = cs ++ ['\n'] := by
  rw [endLine, if_neg]
  cases hl : cs.getLast? with
  | none => simp
  | some c => simp [h c hl]

/-- The closing quote of a scalar does not end its line. -/
theorem endLine_quoted (single : Bool) (ds : List Char) :
    endLine (quoteOf single :: ds ++ [quoteOf single]) = quoteOf single :: (ds ++ [quoteOf single, '\n']) := by
  have hq : isBreak (quoteOf single) = false := by cases single <;> decide
  rw [endLine_of_notBreak]
  · simp
  · intro c hc
    rw [List.getLast?_append, List.getLast?_singleton, Option.some_or, Option.mem_some_iff] at hc
    rw [← hc, hq]

/-- A block ends with the last character of its text. -/
theorem getLast?_blockChars (n : Nat) (afterBreak : Bool) (cs : List Char) :
    (blockChars n afterBreak cs).getLast? = cs.getLast? := by
  induction cs generalizing afterBreak with
  | nil => rfl
  | cons c cs ih =>
    rw [blockChars]
    split
    · rw [List.getLast?_cons, List.getLast?_cons, ih]
    · rw [List.getLast?_append, List.getLast?_cons, List.getLast?_cons, ih, Option.some_or]

/-- A line break at the end of a block is written as it is. -/
theorem blockChars_concat (n : Nat) {c : Char} (h : isBreak c = true) (afterBreak : Bool) (cs : List Char) :
    blockChars n afterBreak (cs ++ [c]) = blockChars n afterBreak cs ++ [c] := by
  induction cs generalizing afterBreak with
  | nil => simp [blockChars, h]
  | cons d cs ih =>
    rw [List.cons_append, blockChars, blockChars]
    split
    · rw [ih, List.cons_append]
    · rw [ih, List.append_assoc, List.cons_append]

/-- The line of a block ends where the line of its text does. -/
theorem endLine_block (n : Nat) {cs : List Char} (hne : cs ≠ []) :
    endLine (blockHeader cs ++ '\n' :: blockChars n true cs) = blockHeader cs ++ '\n' :: blockChars n true (endLine cs) := by
  have hl : (blockHeader cs ++ '\n' :: blockChars n true cs).getLast? = cs.getLast? := by
    rw [List.getLast?_append, List.getLast?_cons, getLast?_blockChars]
    rw [List.getLast?_eq_some_getLast hne]
    rfl
  rw [endLine, endLine, hl]
  split
  · rfl
  · rw [blockChars_concat n rfl, List.append_assoc, List.cons_append]

namespace Lexer

variable {done : List Token} {outer : List Int} {n : Nat} {rest : List Char} {p : Position}

/-- Behind the first column no line begins or ends a document. -/
theorem notDocumentLine_of_column (h : n < p.column) (cs : List Char) : isAtDocumentLine (glyphs p cs) = false := by
  simp [isAtDocumentLine, isDocumentLine, show p.column ≠ 0 by omega]

/-- The content of a text is no longer than the text. -/
theorem length_content_le (cs : List Char) : (content cs).length ≤ cs.length := by
  have hl := congrArg List.length (spaces_append_content cs)
  rw [List.length_append] at hl
  omega

/-- A token begins with what begins a plain scalar. -/
theorem BeginsPlain.beginsToken {c next : Char} (h : BeginsPlain c next) (hp : isPrintable c = true) :
    beginsToken c = true := by
  have h1 : c ≠ '#' := by
    rintro rfl
    exact absurd h.notLeading (by decide)
  have h2 : c ≠ ' ' := by
    rintro rfl
    exact absurd h.notGap (by decide)
  have h3 : c ≠ '\t' := ne_of_isPrintable hp (by decide)
  have h4 : c ≠ byteOrderMark := ne_of_isPrintable hp (by decide)
  simp [Lexer.beginsToken, notBreak_of_notGap h.notGap, h1, h2, h3, h4]

/-- A plain text with its line is reached. -/
theorem Reaches.plain {c : Char} {cs : List Char} {previous : Char} (h : PlainFrom previous (c :: cs))
    (hb : BeginsPlain c (first (cs ++ ['\n']))) (hr : Resumes n rest) (hp : n < p.column) :
    ReachesLine (upTo done n outer false) (glyphs p (c :: cs ++ '\n' :: rest))
        (upTo (done ++ [.scalar (String.ofList (c :: cs)) .plain]) n outer true) rest := by
  obtain ⟨q, hq, hread⟩ := readPlain_line h hr p hp
  refine ⟨q, hq, ?_⟩
  have hfirst : first (cs ++ '\n' :: rest) = first (cs ++ ['\n']) := by cases cs <;> rfl
  have hs : (upTo done n outer false).step (p.glyph c) (glyphs (p.after c) (cs ++ '\n' :: rest)) =
      some (upTo (done ++ [.scalar (String.ofList (c :: cs)) .plain]) n outer true, glyphs q (content rest)) := by
    rw [List.cons_append] at hread
    rw [step_plain (by rwa [peek_glyphs, hfirst]) (notDocumentLine_of_column hp (c :: (cs ++ '\n' :: rest)))]
    rw [glyphs] at hread
    rw [hread]
    rfl
  have hprint := h.printable c (by simp)
  rw [List.cons_append]
  refine .step (hb.beginsToken hprint) (ne_of_isPrintable hprint (by decide)) rfl (by rw [indent_upTo]; omega) hs ?_
  have := length_content_le rest
  simp only [length_glyphs, List.length_append, List.length_cons]
  omega

/-- The style of a scalar between quotes. -/
def quotedStyle (single : Bool) : Style := if single then .singleQuoted else .doubleQuoted

/-- What begins with a quote is read as a quoted scalar. -/
theorem step_quoted (single : Bool) (hp : n < p.column) (gs : List Glyph) :
    (upTo done n outer false).step (p.glyph (quoteOf single)) gs = do
      let (text, rest) ← readQuoted single (gs.length + 1) gs
      return (upTo (done ++ [.scalar (String.ofList text) (quotedStyle single)]) n outer false, rest) := by
  have hd : ∀ mark c, isDocumentLine mark (p.glyph c :: gs) = false := by
    intro mark c
    simp [isDocumentLine, columnOf, show p.column ≠ 0 by omega]
  have hm : ∀ g, (upTo done n outer false).markKey g = some (upTo done n outer false) := fun _ => rfl
  cases single with
  | true => simp [Lexer.step, hd, quoteOf, hm, quotedStyle]
  | false => simp [Lexer.step, hd, quoteOf, hm, quotedStyle]

/-- A quoted text with its line is reached. -/
theorem Reaches.quoted {single : Bool} {cs ds : List Char} (h : Between single cs ds) (hr : Resumes n rest) (hp : n < p.column) :
    ReachesLine (upTo done n outer false) (glyphs p (quoteOf single :: (ds ++ quoteOf single :: '\n' :: rest)))
        (upTo (done ++ [.scalar (String.ofList cs) (quotedStyle single)]) n outer true) rest := by
  have hc : n < (p.after (quoteOf single)).column := by
    have h1 : (p.after (quoteOf single)).column = p.column + 1 := by cases single <;> rfl
    omega
  have hf : cs.length < (glyphs (p.after (quoteOf single)) (ds ++ quoteOf single :: '\n' :: rest)).length + 1 := by
    have := h.length_le
    simp only [length_glyphs, List.length_append]
    omega
  have hs : (upTo done n outer false).step (p.glyph (quoteOf single))
      (glyphs (p.after (quoteOf single)) (ds ++ quoteOf single :: '\n' :: rest)) =
      some (upTo (done ++ [.scalar (String.ofList cs) (quotedStyle single)]) n outer false,
        glyphs ((p.after (quoteOf single)).afterAll (ds ++ [quoteOf single])) ('\n' :: rest)) := by
    have hnext : first ('\n' :: rest) ≠ '\'' := (by decide : '\n' ≠ '\'')
    rw [step_quoted single hp, readQuoted_between h hnext hf _ (by omega)]
    rfl
  have hline : ReachesLine (upTo (done ++ [.scalar (String.ofList cs) (quotedStyle single)]) n outer false)
      (glyphs ((p.after (quoteOf single)).afterAll (ds ++ [quoteOf single])) ('\n' :: rest))
      (upTo (done ++ [.scalar (String.ofList cs) (quotedStyle single)]) n outer true) rest := Reaches.line hr _
  have hb : beginsToken (quoteOf single) = true ∧ quoteOf single ≠ endMark := by cases single <;> decide
  refine (Reaches.step hb.1 hb.2 rfl (by rw [indent_upTo]; omega) hs ?_).trans_line hline
  simp only [length_glyphs, List.length_append, List.length_cons]
  omega

/-- A literal block is reached. -/
theorem Reaches.block {cs : List Char} (h : allowsBlock cs = true) (hr : Resumes n rest) (hp : n < p.column) :
    ReachesLine (upTo done n outer false)
        (glyphs p (blockHeader cs ++ '\n' :: (blockChars (n + 2) true (endLine cs) ++ rest)))
        (upTo (done ++ [.scalar (String.ofList cs) .literal]) n outer true) rest := by
  obtain ⟨header, q, hh, hq, hread⟩ := readBlock_block h hr (p.after '|')
  refine ⟨q, hq, ?_⟩
  generalize blockChars (n + 2) true (endLine cs) = lines at hread ⊢
  have hd : ∀ mark gs, isDocumentLine mark (p.glyph '|' :: gs) = false := by
    intro mark gs
    simp [isDocumentLine, columnOf, show p.column ≠ 0 by omega]
  have hs : (upTo done n outer false).step (p.glyph '|') (glyphs (p.after '|') (header ++ '\n' :: (lines ++ rest))) =
      some (upTo (done ++ [.scalar (String.ofList cs) .literal]) n outer true, glyphs q (content rest)) := by
    simp [Lexer.step, hd, hread]
  rw [hh, List.cons_append]
  refine .step (by decide) (by decide) rfl (by rw [indent_upTo]; omega) hs ?_
  have := length_content_le rest
  simp only [length_glyphs, List.length_append, List.length_cons]
  omega

/-- A text that may be written plain begins a plain scalar. -/
theorem beginsPlain_of_allowsPlain {c : Char} {cs : List Char} (h : allowsPlain (c :: cs) = true) :
    BeginsPlain c (first (cs ++ ['\n'])) := by
  have hp := plainFrom_of_allowsPlain h
  simp only [allowsPlain, Bool.not_eq_true', Bool.or_eq_false_iff, hasIndicator, isLeadingIndicator] at h
  obtain ⟨⟨⟨-, hs⟩, -⟩, ⟨-, hl, hw⟩, -⟩ := h
  refine ⟨?_, hl, fun hc => ?_⟩
  · refine notGap_of_isPrintable (hp.printable c (by simp)) (hp.notBreak c (by simp)) ?_
    rintro rfl
    cases hs
  · have hm : ['?', ':', '-'].contains c = true := by simpa using hc
    rw [hm, Bool.true_and, isWordEnd_head?] at hw
    cases cs with
    | nil => exact absurd hw (by decide)
    | cons d cs => exact hw

/-- The style of a text, with what allows it. -/
theorem styleOf_cases (cs : List Char) :
    (styleOf cs = .literal ∧ allowsBlock cs = true) ∨
      (styleOf cs = .plain ∧ isAmbiguous cs = false ∧ allowsPlain cs = true) ∨
      (styleOf cs = .singleQuoted ∧ allowsSingleQuotes cs = true ∧ '\n' ∉ cs) ∨ styleOf cs = .doubleQuoted := by
  unfold styleOf
  split
  · split
    · exact Or.inl ⟨rfl, ‹_›⟩
    · exact Or.inr (Or.inr (Or.inr rfl))
  · rename_i hn
    split
    · rename_i h
      simp only [Bool.and_eq_true, Bool.not_eq_true'] at h
      exact Or.inr (Or.inl ⟨rfl, h.1, h.2⟩)
    · split
      · exact Or.inr (Or.inr (Or.inl ⟨rfl, ‹_›, by simpa using hn⟩))
      · exact Or.inr (Or.inr (Or.inr rfl))

/-- A text with its line is reached behind a key, whatever style it is written in. -/
theorem Reaches.text (cs : List Char) (hr : Resumes n rest) (hp : n < p.column) :
    ReachesLine (upTo done n outer false) (glyphs p (' ' :: (endLine (scalarChars (n + 2) cs) ++ rest)))
        (upTo (done ++ [.scalar (String.ofList cs) (styleOf cs)]) n outer true) rest := by
  have hp' : n < (p.after ' ').column := Nat.lt_succ_of_lt hp
  have hspace : ∀ {ds : List Char}, beginsToken (first ds) = true →
      Reaches (upTo done n outer false) (glyphs p (' ' :: ds)) (upTo done n outer false) (glyphs (p.after ' ') ds) :=
    fun h => Reaches.spaces h 1 p
  rcases styleOf_cases cs with ⟨hs, hb⟩ | ⟨hs, ha, hb⟩ | ⟨hs, hb, hn⟩ | hs
  · have hne : cs ≠ [] := by
      rintro rfl
      cases hb
    have hw : endLine (scalarChars (n + 2) cs) = blockHeader cs ++ '\n' :: blockChars (n + 2) true (endLine cs) := by
      simp only [scalarChars, hs, endLine_block _ hne]
    rw [hw, hs, List.append_assoc]
    exact (hspace (by rfl)).trans_line (Reaches.block hb hr hp')
  · obtain ⟨c, cs, rfl⟩ : ∃ c cs', cs = c :: cs' := by
      cases cs with
      | nil => cases ha
      | cons c cs => exact ⟨c, cs, rfl⟩
    have hplain := plainFrom_of_allowsPlain hb
    have hw : endLine (scalarChars (n + 2) (c :: cs)) = c :: cs ++ ['\n'] := by
      simp only [scalarChars, hs]
      exact endLine_of_notBreak fun d hd => hplain.notBreak d (List.mem_of_getLast? hd)
    rw [hw, hs, List.append_assoc]
    have ht := (beginsPlain_of_allowsPlain hb).beginsToken (hplain.printable c (by simp))
    exact (hspace (show beginsToken (first (c :: cs ++ (['\n'] ++ rest))) = true from ht)).trans_line
      (Reaches.plain hplain (beginsPlain_of_allowsPlain hb) hr hp')
  · have hw : endLine (scalarChars (n + 2) cs) = '\'' :: (singleQuotedChars (n + 2) false cs ++ ['\'', '\n']) := by
      simp only [scalarChars, hs]
      exact endLine_quoted true _
    rw [hw, hs, List.cons_append, List.append_assoc]
    exact (hspace (by rfl)).trans_line (Reaches.quoted (between_single hb hn (Nat.succ_pos (n + 1))) hr hp')
  · have hw : endLine (scalarChars (n + 2) cs) = '"' :: (cs.flatMap doubleQuotedChar ++ ['"', '\n']) := by
      simp only [scalarChars, hs]
      exact endLine_quoted false _
    rw [hw, hs, List.cons_append, List.append_assoc]
    exact (hspace (by rfl)).trans_line (Reaches.quoted (between_double cs) hr hp')

end Lexer

/-! ## Printable scalars -/

/-- The header of a block is printable. -/
theorem printable_blockHeader (cs : List Char) : Printable (blockHeader cs) := by
  have hs : Printable (chompingSign cs) := by
    unfold chompingSign
    split
    · simp [Printable, isPrintable]
    · split <;> simp [Printable, isPrintable]
    · split
      · simp [Printable, isPrintable]
      · split <;> simp [Printable, isPrintable]
  refine printable_cons (by decide) (printable_append ?_ hs)
  split
  · simp [Printable, isPrintable]
  · simp [Printable]

/-- The lines of a block of printable characters are printable. -/
theorem printable_blockChars (n : Nat) (afterBreak : Bool) {cs : List Char} (h : Printable cs) :
    Printable (blockChars n afterBreak cs) := by
  induction cs generalizing afterBreak with
  | nil => exact h
  | cons c cs ih =>
    rw [Printable, List.forall_mem_cons] at h
    rw [blockChars]
    split
    · exact printable_cons h.1 (ih true h.2)
    · refine printable_append ?_ (printable_cons h.1 (ih false h.2))
      split
      · exact printable_spaces n
      · exact List.forall_mem_nil _

/-- A line with its end is printable. -/
theorem printable_endLine {cs : List Char} (h : Printable cs) : Printable (endLine cs) := by
  unfold endLine
  split
  · exact h
  · exact printable_append h (by simp [Printable, isPrintable])

/-- A written text is printable. -/
theorem printable_scalarChars (n : Nat) (cs : List Char) : Printable (scalarChars (n + 2) cs) := by
  rcases Lexer.styleOf_cases cs with ⟨hs, hb⟩ | ⟨hs, -, hb⟩ | ⟨hs, hb, hn⟩ | hs
  · have hp : Printable cs := by
      simp only [allowsBlock, needsEscapes, Bool.not_eq_true', Bool.or_eq_false_iff, Bool.not_eq_false', List.all_eq_true] at hb
      exact hb.1.1.2
    simp only [scalarChars, hs]
    exact printable_append (printable_blockHeader cs) (printable_cons (by decide) (printable_blockChars _ true hp))
  · simp only [scalarChars, hs]
    exact (plainFrom_of_allowsPlain hb).printable
  · simp only [scalarChars, hs]
    exact printable_append (printable_cons (by decide) (between_single hb hn (Nat.succ_pos (n + 1))).printable)
      (by simp [Printable, isPrintable])
  · simp only [scalarChars, hs]
    exact printable_append (printable_cons (by decide) (between_double cs).printable) (by simp [Printable, isPrintable])

end RegexTree.Yaml
