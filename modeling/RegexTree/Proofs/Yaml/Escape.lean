import Mathlib.Algebra.Group.Nat.Defs
import Mathlib.Data.Option.Basic
import RegexTree.Proofs.Yaml.Gap

/-!
# Escapes, read back

The escape of a character between double quotes is read as the character, be it short or by number (`readEscape_escape`), and
it is written with graphic characters only, which are neither white space nor line breaks.
-/

namespace RegexTree.Yaml

open Text (LetterCase hexDigit hexDigits hexValue? hexValue?_hexDigit)

/-- A character of ASCII that shows. -/
def isGraphic (c : Char) : Bool := 0x21 ≤ c.toNat && c.toNat ≤ 0x7E

/-- A graphic character is printable. -/
theorem isPrintable_of_isGraphic {c : Char} (h : isGraphic c = true) : isPrintable c = true := by
  simp only [isGraphic, Bool.and_eq_true, decide_eq_true_eq] at h
  simp only [isPrintable, Bool.or_eq_true, Bool.and_eq_true, beq_iff_eq, bne_iff_ne, decide_eq_true_eq]
  omega

/-- A graphic character is none of those that do not show. -/
theorem ne_of_isGraphic {c d : Char} (h : isGraphic c = true) (hd : isGraphic d = false) : c ≠ d := by
  rintro rfl
  rw [h] at hd
  cases hd

/-- A graphic character is neither white space nor a line break. -/
theorem notGap_of_isGraphic {c : Char} (h : isGraphic c = true) : isGap c = false := by
  have hs := ne_of_isGraphic (d := ' ') h (by decide)
  have ht := ne_of_isGraphic (d := '\t') h (by decide)
  have hn := ne_of_isGraphic (d := '\n') h (by decide)
  have hl := ne_of_isGraphic (d := '\u2028') h (by decide)
  have hp := ne_of_isGraphic (d := '\u2029') h (by decide)
  have he := ne_of_isGraphic (d := endMark) h (by decide)
  simp [isGap, isLineEnd, isWhite, isBreak, hs, ht, hn, hl, hp, he]

/-- A letter or a digit shows. -/
theorem isGraphic_of_isAlphanum {c : Char} (h : c.isAlphanum = true) : isGraphic c = true := by
  have hc : c.val.toNat = c.toNat := rfl
  delta Char.isAlphanum Char.isAlpha Char.isUpper Char.isLower Char.isDigit at h
  simp only [Bool.or_eq_true, Bool.and_eq_true, decide_eq_true_eq, ge_iff_le, UInt32.le_iff_toNat_le, hc] at h
  simp only [isGraphic, Bool.and_eq_true, decide_eq_true_eq]
  simp at h
  omega

/-! ## Hexadecimal digits -/

/-- The digits of numbers below sixteen show. -/
theorem isGraphic_hexDigit (letters : LetterCase) {n : Nat} (h : n < 16) : isGraphic (hexDigit letters n) = true := by
  have hall : ∀ n < 16, isGraphic (hexDigit letters n) = true := by
    cases letters <;> decide
  exact hall n h

/-- Hexadecimal digits show. -/
theorem isGraphic_hexDigits (letters : LetterCase) (width n : Nat) : ∀ c ∈ hexDigits letters width n, isGraphic c = true := by
  induction width generalizing n with
  | zero => simp [hexDigits]
  | succ width ih =>
    intro c hc
    rcases List.mem_append.1 hc with hc | hc
    · exact ih _ c hc
    · rw [List.mem_singleton.1 hc]
      exact isGraphic_hexDigit letters (Nat.mod_lt n (by decide))

/-- One digit more is read behind those that have been read. -/
theorem readHex_succ {width value m d : Nat} {gs rest : List Glyph} {g : Glyph}
    (h : readHex width value gs = some (m, g :: rest)) (hd : hexValue? g.char = some d) :
    readHex (width + 1) value gs = some (16 * m + d, rest) := by
  induction width generalizing value gs with
  | zero =>
    cases h
    simp only [readHex, hd, bind, Option.bind]
  | succ width ih =>
    cases gs with
    | nil => cases h
    | cons g' gs =>
      rw [readHex] at h ⊢
      cases hg : hexValue? g'.char with
      | none =>
        rw [hg] at h
        cases h
      | some e =>
        rw [hg] at h
        exact ih h

/-- The digits of a number are read back as the number, as far as the width goes. -/
theorem readHex_hexDigits (letters : LetterCase) (width n : Nat) (rest : List Char) (p : Position) :
    readHex width 0 (glyphs p (hexDigits letters width n ++ rest)) =
      some (n % 16 ^ width, glyphs (p.afterAll (hexDigits letters width n)) rest) := by
  induction width generalizing n rest with
  | zero => simp [hexDigits, readHex, Nat.mod_one]
  | succ width ih =>
    have hd := hexValue?_hexDigit letters (Nat.mod_lt n (by decide))
    have h := ih (n / 16) (hexDigit letters (n % 16) :: rest)
    have hm : 16 * (n / 16 % 16 ^ width) + n % 16 = n % 16 ^ (width + 1) := by
      rw [Nat.pow_succ', Nat.mod_mul]
      omega
    rw [hexDigits, List.append_assoc, List.singleton_append, readHex_succ h hd, hm, Position.afterAll_append]
    rfl

/-! ## Escapes -/

/-- The letter of a short escape shows, stands for its character and for no number. -/
theorem escapeLetter?_spec {c letter : Char} (h : escapeLetter? c = some letter) :
    isGraphic letter = true ∧ shortEscape? letter = some c ∧ escapeWidth? letter = none := by
  unfold escapeLetter? at h
  split at h <;> cases h <;> decide

/-- An escape is a backslash and graphic characters. -/
theorem exists_escape (c : Char) : ∃ body, escape c = '\\' :: body ∧ body ≠ [] ∧ ∀ d ∈ body, isGraphic d = true := by
  unfold escape
  split
  · rename_i letter h
    exact ⟨[letter], rfl, by simp, by simpa using (escapeLetter?_spec h).1⟩
  · have hd : ∀ l width, isGraphic l = true → ∀ d ∈ l :: hexDigits .capital width c.toNat, isGraphic d = true := by
      intro l width hl
      rw [List.forall_mem_cons]
      exact ⟨hl, isGraphic_hexDigits _ _ _⟩
    dsimp only
    split
    · exact ⟨_, rfl, by simp, hd 'x' 2 rfl⟩
    · split
      · exact ⟨_, rfl, by simp, hd 'u' 4 rfl⟩
      · exact ⟨_, rfl, by simp, hd 'U' 8 rfl⟩

/-- A number in so many digits is read as the character of that number. -/
theorem readEscape_hexDigits {letters : LetterCase} {l c : Char} {width : Nat} (hl : escapeWidth? l = some width)
    (hc : c.toNat < 16 ^ width) (rest : List Char) (p : Position) :
    readEscape (glyphs p (l :: (hexDigits letters width c.toNat ++ rest))) =
      some (c, glyphs (p.afterAll (l :: hexDigits letters width c.toNat)) rest) := by
  have hv : c.toNat.isValidChar := c.valid
  have hn : Char.ofNat (c.toNat % 16 ^ width) = c := by rw [Nat.mod_eq_of_lt hc, Char.ofNat_toNat]
  rw [Position.afterAll_cons, glyphs, readEscape]
  simp only [Position.glyph, hl, readHex_hexDigits, bind, Option.bind, hn]
  rw [Nat.mod_eq_of_lt hc, guard, if_pos hv]
  rfl

/-- The escape of a character is read as the character. -/
theorem readEscape_escape {c : Char} {body : List Char} (h : escape c = '\\' :: body) (rest : List Char) (p : Position) :
    readEscape (glyphs p (body ++ rest)) = some (c, glyphs (p.afterAll body) rest) := by
  unfold escape at h
  split at h
  · rename_i letter hl
    obtain ⟨-, hs, hw⟩ := escapeLetter?_spec hl
    cases h
    simp only [List.singleton_append, glyphs, readEscape, Position.glyph, hw, hs]
    rfl
  · have hv : c.toNat < 16 ^ 8 := by
      have hv : c.toNat.isValidChar := c.valid
      simp only [Nat.isValidChar] at hv
      omega
    dsimp only at h
    split at h
    · rename_i hc
      cases h
      exact readEscape_hexDigits rfl (by omega) rest p
    · split at h
      · rename_i hc
        cases h
        exact readEscape_hexDigits rfl (by omega) rest p
      · cases h
        exact readEscape_hexDigits rfl hv rest p

end RegexTree.Yaml
