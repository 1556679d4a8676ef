import RegexTree.Json.Writer
import RegexTree.Proofs.Json.Reader
import RegexTree.Proofs.Written

/-!
# Strings and counts in JSON, read back

A string in quotes, with its escapes, spells the string (`spellsString_quote`). The digits of a count spell a literal
(`spellsNumber_toDigits`), and this stands for the count (`numeral?_ofNat`).
-/

namespace RegexTree.Json

/-! ## Strings -/

/-- The piece that a reader takes an escaped character for: a unit where the escape names a number, else the character. -/
def pieceOf (c : Char) : Piece :=
  if c.toNat < 0x20 ∧ c ∉ ['\x08', '\x0c', '\n', '\r', '\t'] then .unit c.toNat else .char c

/-- A number of one byte is read back from its two digits. -/
theorem hexUnit?_hexDigit {n : Nat} (h : n < 0x100) :
    hexUnit? '0' '0' (Text.hexDigit .small (n / 16)) (Text.hexDigit .small (n % 16)) = some n := by
  have hz : hexValue? '0' = some 0 := rfl
  have hhigh := Text.hexValue?_hexDigit .small (n := n / 16) (by omega)
  have hlow := Text.hexValue?_hexDigit .small (n := n % 16) (by omega)
  simp only [hexUnit?, hz, hhigh, hlow, bind, Option.bind, pure]
  congr 1
  omega

/-- The escape of a character spells its piece. -/
theorem spellsPieces_escape (c : Char) {ps : List Piece} {cs : List Char} (h : SpellsPieces ps cs) :
    SpellsPieces (pieceOf c :: ps) (escape c ++ cs) := by
  by_cases hq : c = '"'
  · subst hq; exact .short rfl h
  by_cases hs : c = '\\'
  · subst hs; exact .short rfl h
  by_cases hb : c = '\x08'
  · subst hb; exact .short rfl h
  by_cases hf : c = '\x0c'
  · subst hf; exact .short rfl h
  by_cases hn : c = '\n'
  · subst hn; exact .short rfl h
  by_cases hr : c = '\r'
  · subst hr; exact .short rfl h
  by_cases ht : c = '\t'
  · subst ht; exact .short rfl h
  simp only [escape, hq, hs, hb, hf, hn, hr, ht, if_false]
  by_cases hc : c.toNat < 0x20
  · have hp : pieceOf c = .unit c.toNat := by simp [pieceOf, hc, hb, hf, hn, hr, ht]
    simp only [hc, if_true, hp]
    exact .unit (hexUnit?_hexDigit (by omega)) h
  · have hp : pieceOf c = .char c := by simp [pieceOf, hc]
    simp only [hc, if_false, hp]
    exact .char hq hs (Nat.not_lt.1 hc) h

/-- The escapes of characters spell their pieces. -/
theorem spellsPieces_escaped (cs : List Char) : SpellsPieces (cs.map pieceOf) (cs.flatMap escape) := by
  induction cs with
  | nil => exact .nil
  | cons c cs ih => exact spellsPieces_escape c ih

/-- A unit below the halves of surrogate pairs is a character of its own, whatever follows it. -/
theorem joinPieces?_unit {n : Nat} (hn : n < 0xD800) (ps : List Piece) :
    joinPieces? (.unit n :: ps) = (joinPieces? ps).map (Char.ofNat n :: ·) := by
  have hh : isHighHalf n = false := by simp [isHighHalf]; omega
  have hl : isLowHalf n = false := by simp [isLowHalf]; omega
  cases ps with
  | nil => simp [joinPieces?, hh, hl]
  | cons p ps => cases p <;> simp [joinPieces?, hh, hl]

/-- The piece of a character is joined to that character. -/
theorem joinPieces?_pieceOf (c : Char) (ps : List Piece) :
    joinPieces? (pieceOf c :: ps) = (joinPieces? ps).map (c :: ·) := by
  unfold pieceOf
  split
  · rename_i hc
    rw [joinPieces?_unit (by omega), Char.ofNat_toNat]
  · rfl

/-- The pieces of characters are joined to the characters. -/
theorem joinPieces?_map_pieceOf (cs : List Char) : joinPieces? (cs.map pieceOf) = some cs := by
  induction cs with
  | nil => rfl
  | cons c cs ih =>
    rw [List.map_cons, joinPieces?_pieceOf, ih]
    rfl

/-- A quoted string spells the string. -/
theorem spellsString_quote (s : String) : SpellsString (some s) (quote s) := by
  refine ⟨s.toList.map pieceOf, s.toList.flatMap escape, spellsPieces_escaped s.toList, ?_, rfl⟩
  rw [joinPieces?_map_pieceOf, Option.map_some, String.ofList_toList]

/-! ## Counts -/

/-- The literal that a natural number is written as. -/
def NumberLiteral.ofNat (n : Nat) : NumberLiteral := ⟨false, Nat.toDigits 10 n, none, none⟩

/-- The digits of a count spell its literal. -/
theorem spellsNumber_toDigits (n : Nat) : SpellsNumber (NumberLiteral.ofNat n) (Nat.toDigits 10 n) := by
  have hz : (Nat.toDigits 10 n).head? ≠ some '0' ∨ (Nat.toDigits 10 n).length = 1 :=
    (leading_toDigits n).imp_right (congrArg List.length)
  refine ⟨⟨Nat.toDigits_ne_nil, isDigit_toDigits n⟩, hz, [], [], rfl, rfl, ?_⟩
  rw [List.append_nil, List.append_nil]
  rfl

open NumberLiteral in
/-- Digits whose value is in bounds are all kept. -/
theorem accumulate_ofDigitChars {n : Nat} {cs : List Char} (h : Nat.ofDigitChars 10 cs n ≤ greatestSignificand) :
    accumulate n cs = (Nat.ofDigitChars 10 cs n, []) := by
  induction cs generalizing n with
  | nil => rfl
  | cons c cs ih =>
    rw [Nat.ofDigitChars_cons] at h ⊢
    have hm : 10 * n + digitValue c ≤ greatestSignificand := by
      refine Nat.le_trans ?_ h
      rw [Nat.ofDigitChars_eq_ofDigitChars_zero]
      have : 0 < 10 ^ cs.length := Nat.pow_pos (by decide)
      have := Nat.le_mul_of_pos_left (10 * n + (c.toNat - '0'.toNat)) this
      unfold digitValue
      omega
    simp only [accumulate, hm, if_true]
    exact ih h

/-- The literal of a count stands for the count. -/
theorem numeral?_ofNat {n : Nat} (h : n ≤ NumberLiteral.greatestSignificand) :
    (NumberLiteral.ofNat n).numeral? = some (.integer n) := by
  have hn : Nat.ofDigitChars 10 (Nat.toDigits 10 n) 0 = n := Nat.ofDigitChars_toDigits (by decide) (by decide)
  have ha : NumberLiteral.accumulate 0 (Nat.toDigits 10 n) = (Nat.ofDigitChars 10 (Nat.toDigits 10 n) 0, []) :=
    accumulate_ofDigitChars (by rw [hn]; exact h)
  simp only [NumberLiteral.numeral?, NumberLiteral.ofNat, ha, hn]
  rfl

end RegexTree.Json
