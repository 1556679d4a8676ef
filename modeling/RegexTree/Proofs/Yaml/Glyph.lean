import RegexTree.Yaml.Writer

/-!
# The glyphs of a written text

The texts that are written hold printable characters only, among them no carriage return, so that each character becomes one
glyph (`ofChars?_printable`). `glyphs` gives them from any place on: what is read from the front of a text leaves the glyphs of
the rest of it, from the place that `Position.afterAll` says.
-/

namespace RegexTree.Yaml

/-- A place in a text. -/
structure Position where
  index : Nat := 0
  line : Nat := 0
  column : Nat := 0

namespace Position

/-- The glyph of a character at a place. -/
def glyph (p : Position) (c : Char) : Glyph := ⟨c, p.index, p.line, p.column⟩

@[simp] theorem char_glyph (p : Position) (c : Char) : (p.glyph c).char = c := rfl

@[simp] theorem column_glyph (p : Position) (c : Char) : (p.glyph c).column = p.column := rfl

/-- The place behind a character. -/
def after (p : Position) (c : Char) : Position :=
  if isBreak c then ⟨p.index + 1, p.line + 1, 0⟩ else ⟨p.index + 1, p.line, p.column + 1⟩

/-- The place behind a text. -/
def afterAll (p : Position) (cs : List Char) : Position := cs.foldl after p

@[simp] theorem afterAll_nil (p : Position) : p.afterAll [] = p := rfl

@[simp] theorem afterAll_cons (p : Position) (c : Char) (cs : List Char) : p.afterAll (c :: cs) = (p.after c).afterAll cs := rfl

@[simp] theorem afterAll_append (p : Position) (cs ds : List Char) : p.afterAll (cs ++ ds) = (p.afterAll cs).afterAll ds :=
  List.foldl_append

/-- Behind a text without line breaks the line is the same. -/
theorem afterAll_of_notBreak (p : Position) {cs : List Char} (h : ∀ c ∈ cs, isBreak c = false) :
    p.afterAll cs = ⟨p.index + cs.length, p.line, p.column + cs.length⟩ := by
  induction cs generalizing p with
  | nil => rfl
  | cons c cs ih =>
    rw [List.forall_mem_cons] at h
    rw [afterAll_cons, after, if_neg (by simp [h.1]), ih _ h.2, List.length_cons]
    simp only [Nat.add_assoc, Nat.add_comm 1]

/-- The first character behind a line break stands in the first column. -/
theorem column_after_break (p : Position) {c : Char} (h : isBreak c = true) : (p.after c).column = 0 := by
  rw [after, if_pos h]

/-- Behind a text of line breaks is the first column. -/
theorem column_afterAll_breaks (p : Position) {cs : List Char} (hne : cs ≠ []) (h : ∀ c ∈ cs, isBreak c = true) :
    (p.afterAll cs).column = 0 := by
  obtain ⟨front, c, rfl⟩ := List.eq_nil_or_concat cs |>.resolve_left hne
  rw [List.concat_eq_append, afterAll_append]
  exact column_after_break _ (h c (by simp))

end Position

/-- The glyphs of a text from a place on, where each of its characters is one glyph. -/
def glyphs (p : Position) : List Char → List Glyph
  | [] => [p.glyph endMark]
  | c :: cs => p.glyph c :: glyphs (p.after c) cs

/-- The character that a text begins with, the mark of the end where it is empty. -/
def first (cs : List Char) : Char := cs.headD endMark

@[simp] theorem first_cons (c : Char) (cs : List Char) : first (c :: cs) = c := rfl

/-- The first character of two texts is that of the first of them, unless it is empty. -/
theorem first_append {cs : List Char} (h : cs ≠ []) (ds : List Char) : first (cs ++ ds) = first cs := by
  cases cs with
  | nil => exact absurd rfl h
  | cons c cs => rfl

@[simp] theorem peek_glyphs (p : Position) (cs : List Char) : peek (glyphs p cs) = first cs := by
  cases cs <;> rfl

@[simp] theorem columnOf_glyphs (p : Position) (cs : List Char) : columnOf (glyphs p cs) = p.column := by
  cases cs <;> rfl

@[simp] theorem length_glyphs (p : Position) (cs : List Char) : (glyphs p cs).length = cs.length + 1 := by
  induction cs generalizing p with
  | nil => rfl
  | cons c cs ih => rw [glyphs, List.length_cons, ih, List.length_cons]

@[simp] theorem drop_glyphs_cons (p : Position) (c : Char) (cs : List Char) :
    (glyphs p (c :: cs)).drop 1 = glyphs (p.after c) cs := rfl

/-- The glyphs of a text begin with the glyph of its first character. -/
theorem glyphs_eq_cons (p : Position) (cs : List Char) : ∃ gs, glyphs p cs = p.glyph (first cs) :: gs := by
  cases cs with
  | nil => exact ⟨[], rfl⟩
  | cons c cs => exact ⟨glyphs (p.after c) cs, rfl⟩

/-- The characters that pass a test are read up to one that does not. -/
theorem spanChars_glyphs {test : Char → Bool} {cs rest : List Char} (h : ∀ c ∈ cs, test c = true)
    (hr : test (first rest) = false) (p : Position) :
    spanChars test (glyphs p (cs ++ rest)) = (cs, glyphs (p.afterAll cs) rest) := by
  induction cs generalizing p with
  | nil =>
    obtain ⟨gs, hgs⟩ := glyphs_eq_cons p rest
    rw [List.nil_append, hgs, spanChars, if_neg (by simp [Position.glyph, hr]), Position.afterAll_nil, hgs]
  | cons c cs ih =>
    rw [List.forall_mem_cons] at h
    rw [List.cons_append, glyphs, spanChars, if_pos (by simpa [Position.glyph] using h.1), ih h.2]
    rfl

/-! ## Printable texts -/

/-- Every character of the text is written as it is. -/
def Printable (cs : List Char) : Prop := ∀ c ∈ cs, isPrintable c = true

theorem printable_append {cs ds : List Char} (h : Printable cs) (h' : Printable ds) : Printable (cs ++ ds) :=
  List.forall_mem_append.2 ⟨h, h'⟩

theorem printable_cons {c : Char} {cs : List Char} (hc : isPrintable c = true) (h : Printable cs) : Printable (c :: cs) :=
  List.forall_mem_cons.2 ⟨hc, h⟩

/-- An indentation is printable. -/
theorem printable_spaces (n : Nat) : Printable (spaces n) := by
  intro c hc
  rw [List.eq_of_mem_replicate hc]
  decide

/-- A printable character is none of those that are not. -/
theorem ne_of_isPrintable {c d : Char} (h : isPrintable c = true) (hd : isPrintable d = false) : c ≠ d := by
  rintro rfl
  rw [h] at hd
  cases hd

/-- A text may hold every printable character. -/
theorem isAdmissible_of_isPrintable {c : Char} (h : isPrintable c = true) : isAdmissible c = true := by
  simp only [isPrintable, Bool.or_eq_true, Bool.and_eq_true, beq_iff_eq, bne_iff_ne, decide_eq_true_eq] at h
  simp only [isAdmissible, Bool.or_eq_true, Bool.and_eq_true, beq_iff_eq, decide_eq_true_eq]
  omega

/-- A text of printable characters has a glyph for each of them. -/
theorem place_printable {cs : List Char} (h : Printable cs) (p : Position) :
    Glyph.place p.index p.line p.column cs = glyphs p cs := by
  induction cs generalizing p with
  | nil => rfl
  | cons c cs ih =>
    rw [Printable, List.forall_mem_cons] at h
    have hr : c ≠ '\r' := ne_of_isPrintable h.1 (by decide)
    have hn : c ≠ nextLine := ne_of_isPrintable h.1 (by decide)
    have hp : ∀ q : Position, Glyph.place q.index q.line q.column cs = glyphs q cs := fun q => ih h.2 q
    rw [Glyph.place, if_neg (by simp [hr, hn]), glyphs, Position.glyph, Position.after]
    · split
      · rw [hp ⟨_, _, _⟩]
      · rw [hp ⟨_, _, _⟩]
    · rintro cs rfl
      exact absurd rfl hr

/-- The glyphs of a printable text. -/
theorem ofChars?_printable {cs : List Char} (h : Printable cs) : Glyph.ofChars? cs = some (glyphs {} cs) := by
  have ha : cs.all isAdmissible = true := List.all_eq_true.2 fun c hc => isAdmissible_of_isPrintable (h c hc)
  rw [Glyph.ofChars?, if_pos ha]
  exact congrArg some (place_printable h {})

end RegexTree.Yaml
