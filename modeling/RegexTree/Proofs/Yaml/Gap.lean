import RegexTree.Yaml.Token.Scalar
import RegexTree.Proofs.Yaml.Glyph

/-!
# Words, gaps and lines

A written scalar is read word by word: `Words` cuts a text at what stands between them, and `readInterval_glyphs` says what is
read of a gap of spaces and line breaks. Behind a scalar the text goes on in a new line, at a column further out than the
scalar may stand (`Resumes`).
-/

namespace RegexTree.Yaml

/-- A text cut into words of characters that pass a test and gaps of others, each gap with a word behind it or the end. -/
inductive Words (test : Char → Bool) : List Char → Prop
  | word {w : List Char} (hw : ∀ c ∈ w, test c = true) : Words test w
  | gap {w g cs : List Char} (hw : ∀ c ∈ w, test c = true) (hne : g ≠ []) (hg : ∀ c ∈ g, test c = false)
      (hcs : ∀ c ∈ cs.head?, test c = true) (h : Words test cs) : Words test (w ++ (g ++ cs))

/-- Every text can be cut into words. -/
theorem words (test : Char → Bool) (cs : List Char) : Words test cs := by
  -- The induction is on the length: a word and the gap behind it are cut off together.
  induction hn : cs.length using Nat.strongRecOn generalizing cs with
  | _ n ih =>
    have hw : ∀ c ∈ cs.takeWhile test, test c = true := List.all_eq_true.1 List.all_takeWhile
    rcases hr : cs.dropWhile test with _ | ⟨c, rest⟩
    · have hcs := List.takeWhile_append_dropWhile (p := test) (l := cs)
      rw [hr, List.append_nil] at hcs
      rw [← hcs]
      exact .word hw
    · have hc : test c = false := by
        have hh := List.head?_dropWhile_not test cs
        rw [hr] at hh
        simpa using hh
      have hgap : (c :: rest).takeWhile (fun d => !test d) ≠ [] := by simp [hc]
      have hs := (List.takeWhile_append_dropWhile (p := test) (l := cs)).symm
      rw [hr, ← List.takeWhile_append_dropWhile (p := fun d => !test d) (l := c :: rest)] at hs
      have hl := congrArg List.length hs
      have hg := List.length_pos_iff.2 hgap
      simp only [List.length_append] at hl
      rw [hs]
      refine .gap hw hgap (fun d hd => ?_) (fun d hd => ?_) (ih _ (by omega) _ rfl)
      · simpa using List.all_eq_true.1 List.all_takeWhile d hd
      · have hh := List.head?_dropWhile_not (fun d => !test d) (c :: rest)
        rw [Option.mem_def.1 hd] at hh
        simpa using hh

/-! ## Gaps -/

/-- What is no gap is no white space. -/
theorem notWhite_of_notGap {c : Char} (h : isGap c = false) : isWhite c = false := (Bool.or_eq_false_iff.1 h).1

/-- What is no gap is no line break. -/
theorem notBreak_of_notGap {c : Char} (h : isGap c = false) : isBreak c = false :=
  (Bool.or_eq_false_iff.1 (Bool.or_eq_false_iff.1 h).2).1

/-- A line break is a gap. -/
theorem isGap_of_isBreak {c : Char} (h : isBreak c = true) : isGap c = true := by
  simp [isGap, isLineEnd, h]

/-- A line break is none of the other characters. -/
theorem ne_of_isBreak {c d : Char} (h : isBreak c = true) (hd : isBreak d = false) : c ≠ d := by
  rintro rfl
  rw [h] at hd
  cases hd

/-- A line break is no white space. -/
theorem notWhite_of_isBreak {c : Char} (h : isBreak c = true) : isWhite c = false := by
  have hs := ne_of_isBreak (d := ' ') h (by decide)
  have ht := ne_of_isBreak (d := '\t') h (by decide)
  simp [isWhite, hs, ht]

/-- A gap of spaces and line breaks is read up to the next other character. -/
theorem readInterval_glyphs {g rest : List Char} (hg : ∀ c ∈ g, c = ' ' ∨ isBreak c = true)
    (hr : isWhite (first rest) = false ∧ isBreak (first rest) = false) (indent : Int) (isBroken : Bool) (p : Position) :
    readInterval indent isBroken (glyphs p (g ++ rest)) =
      some (⟨if isBroken then [] else g.takeWhile isWhite, g.filter isBreak⟩, glyphs (p.afterAll g) rest) := by
  induction g generalizing isBroken p with
  | nil =>
    obtain ⟨gs, hgs⟩ := glyphs_eq_cons p rest
    simp [hgs, readInterval, Position.glyph, hr]
  | cons c g ih =>
    rw [List.forall_mem_cons] at hg
    have hi := fun b => ih hg.2 b (p.after c)
    rcases hg.1 with rfl | hb
    · have hw : isWhite ' ' = true := rfl
      have hn : isBreak ' ' = false := rfl
      rw [List.cons_append, glyphs, readInterval]
      cases isBroken <;> simp [Position.glyph, hw, hn, hi]
    · have hw := notWhite_of_isBreak hb
      rw [List.cons_append, glyphs, readInterval]
      simp [Position.glyph, hw, hb, hi]

/-- A gap of spaces stands for itself. -/
theorem readInterval_spaces {g : List Char} (hg : ∀ c ∈ g, c = ' ') (rest : List Char)
    (hr : isWhite (first rest) = false ∧ isBreak (first rest) = false) (indent : Int) (p : Position) :
    readInterval indent false (glyphs p (g ++ rest)) = some (⟨g, []⟩, glyphs (p.afterAll g) rest) := by
  have hw : g.takeWhile isWhite = g := by
    have ha : ∀ c ∈ g, isWhite c = true := fun c hc => by rw [hg c hc]; rfl
    have ht : (g ++ []).takeWhile isWhite = g ++ [] := List.takeWhile_append_of_pos ha
    simpa using ht
  have hb : g.filter isBreak = [] := by
    rw [List.filter_eq_nil_iff]
    intro c hc
    rw [hg c hc]
    decide
  rw [readInterval_glyphs (fun c hc => Or.inl (hg c hc)) hr, hw, hb]
  rfl

/-- Of a gap of line breaks with an indentation behind them, only the line breaks count. -/
theorem readInterval_breaks {g rest : List Char} (hne : g ≠ []) (hg : ∀ c ∈ g, isBreak c = true) (n : Nat)
    (hr : isWhite (first rest) = false ∧ isBreak (first rest) = false) (indent : Int) (p : Position) :
    readInterval indent false (glyphs p (g ++ (spaces n ++ rest))) =
      some (⟨[], g⟩, glyphs (p.afterAll (g ++ spaces n)) rest) := by
  obtain ⟨c, g, rfl⟩ := List.exists_cons_of_ne_nil hne
  have hs : ∀ d ∈ spaces n, d = ' ' := fun d hd => List.eq_of_mem_replicate hd
  have hw : isWhite c = false := notWhite_of_isBreak (hg c (by simp))
  have hf : (c :: g ++ spaces n).filter isBreak = c :: g := by
    rw [List.filter_append, List.filter_eq_self.2 hg, List.filter_eq_nil_iff.2, List.append_nil]
    intro d hd
    rw [hs d hd]
    decide
  have ht : (c :: g ++ spaces n).takeWhile isWhite = [] := by simp [hw]
  rw [← List.append_assoc, readInterval_glyphs, hf, ht]
  · rfl
  · intro d hd
    rcases List.mem_append.1 hd with hd | hd
    · exact Or.inr (hg d hd)
    · exact Or.inl (hs d hd)
  · exact hr

/-! ## Lines -/

/-- The spaces that a text begins with. -/
def indentation (cs : List Char) : Nat := (cs.takeWhile (· == ' ')).length

/-- The text behind the spaces that it begins with. -/
def content (cs : List Char) : List Char := cs.dropWhile (· == ' ')

/-- A text is its content behind its indentation. -/
theorem spaces_append_content (cs : List Char) : spaces (indentation cs) ++ content cs = cs := by
  have hs : spaces (indentation cs) = cs.takeWhile (· == ' ') := by
    refine (List.eq_replicate_iff.2 ⟨rfl, fun c hc => ?_⟩).symm
    simpa using List.all_eq_true.1 List.all_takeWhile c hc
  rw [hs]
  exact List.takeWhile_append_dropWhile

/-- An indentation before a text that does not begin with a space is the indentation of both. -/
theorem indentation_spaces {cs : List Char} (h : first cs ≠ ' ') (n : Nat) : indentation (spaces n ++ cs) = n := by
  have hs : ∀ c ∈ spaces n, (c == ' ') = true := fun c hc => by simp [List.eq_of_mem_replicate hc]
  have hc : cs.takeWhile (· == ' ') = [] := by
    cases cs with
    | nil => rfl
    | cons c cs => exact List.takeWhile_cons_of_neg (by simpa using h)
  rw [indentation, List.takeWhile_append_of_pos hs, hc, List.append_nil, spaces, List.length_replicate]

/-- The content behind an indentation is the text that does not begin with a space. -/
theorem content_spaces {cs : List Char} (h : first cs ≠ ' ') (n : Nat) : content (spaces n ++ cs) = cs := by
  have hs : ∀ c ∈ spaces n, (c == ' ') = true := fun c hc => by simp [List.eq_of_mem_replicate hc]
  rw [content, List.dropWhile_append_of_pos hs]
  cases cs with
  | nil => rfl
  | cons c cs => exact List.dropWhile_cons_of_neg (by simpa using h)

/-- A line begins with a letter or a dash. -/
def beginsLine (c : Char) : Bool := c == '-' || c.isAlpha

/-- The text is a new line that begins no further in than at the column `n`, with a letter or a dash, or there is none. -/
def Resumes (n : Nat) (rest : List Char) : Prop :=
  indentation rest ≤ n ∧ (rest = [] ∨ beginsLine (first (content rest)) = true)

/-- No line begins with a character that is neither a letter nor a dash. -/
theorem ne_of_beginsLine {c d : Char} (h : beginsLine c = true) (hd : beginsLine d = false) : c ≠ d := by
  rintro rfl
  rw [h] at hd
  cases hd

/-- A line begins with neither white space nor a line break. -/
theorem notGap_of_beginsLine {c : Char} (h : beginsLine c = true) : isGap c = false := by
  have hs := ne_of_beginsLine (d := ' ') h (by decide)
  have ht := ne_of_beginsLine (d := '\t') h (by decide)
  have hn := ne_of_beginsLine (d := '\n') h (by decide)
  have hl := ne_of_beginsLine (d := '\u2028') h (by decide)
  have hp := ne_of_beginsLine (d := '\u2029') h (by decide)
  have he := ne_of_beginsLine (d := endMark) h (by decide)
  simp [isGap, isLineEnd, isWhite, isBreak, hs, ht, hn, hl, hp, he]

/-- Where a text resumes stands neither white space nor a line break. -/
theorem Resumes.content {n : Nat} {rest : List Char} (h : Resumes n rest) :
    isWhite (first (content rest)) = false ∧ isBreak (first (content rest)) = false := by
  rcases h.2 with rfl | hb
  · decide
  · have hg := notGap_of_beginsLine hb
    exact ⟨notWhite_of_notGap hg, notBreak_of_notGap hg⟩

/-- Where a text resumes stands neither a space nor a tab. -/
theorem Resumes.first_ne {n : Nat} {rest : List Char} (h : Resumes n rest) :
    first (Yaml.content rest) ≠ ' ' ∧ first (Yaml.content rest) ≠ '\t' := by
  have hw := h.content.1
  simpa [isWhite] using hw

/-- Behind a line break and the indentation of a line is the column of the line. -/
theorem column_line {g : List Char} (hne : g ≠ []) (hg : ∀ c ∈ g, isBreak c = true) (n : Nat) (p : Position) :
    (p.afterAll (g ++ spaces n)).column = n := by
  have hs : ∀ c ∈ spaces n, isBreak c = false := fun c hc => by
    rw [List.eq_of_mem_replicate hc]
    decide
  rw [Position.afterAll_append, Position.afterAll_of_notBreak _ hs, Position.column_afterAll_breaks p hne hg, Nat.zero_add,
    spaces, List.length_replicate]

end RegexTree.Yaml
