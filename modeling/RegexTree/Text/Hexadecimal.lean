/-!
# Hexadecimal digits

Digits are read in small and in capital letters, and written in the letters that the writer asks for.
-/

namespace RegexTree.Text

/-- The value of a hexadecimal digit. -/
def hexValue? (c : Char) : Option Nat :=
  let n := c.toNat
  if 0x30 ≤ n ∧ n ≤ 0x39 then some (n - 0x30)
  else if 0x41 ≤ n ∧ n ≤ 0x46 then some (n - 0x37)
  else if 0x61 ≤ n ∧ n ≤ 0x66 then some (n - 0x57)
  else none

/-- The letters that digits from ten on are written in. -/
inductive LetterCase where
  | small
  | capital
  deriving DecidableEq

/-- The digit of ten. -/
def LetterCase.ten : LetterCase → Char
  | small => 'a'
  | capital => 'A'

/-- A hexadecimal digit. -/
def hexDigit (letters : LetterCase) (n : Nat) : Char :=
  if n < 10 then Char.ofNat (0x30 + n) else Char.ofNat (letters.ten.toNat + (n - 10))

/-- The lowest bits of a number in so many hexadecimal digits. -/
def hexDigits (letters : LetterCase) : (width : Nat) → Nat → List Char
  | 0, _ => []
  | width + 1, n => hexDigits letters width (n / 16) ++ [hexDigit letters (n % 16)]

/-- A digit is read back, whatever letters it is written in. -/
theorem hexValue?_hexDigit (letters : LetterCase) {n : Nat} (h : n < 16) : hexValue? (hexDigit letters n) = some n := by
  have hall : ∀ n < 16, hexValue? (hexDigit letters n) = some n := by
    cases letters <;> decide
  exact hall n h

end RegexTree.Text
