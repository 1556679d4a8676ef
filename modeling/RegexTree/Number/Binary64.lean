/-!
# Binary floating point of 64 bits

A finite number is a sign, a mantissa below 2 ^ 53 and a power of two of at least -1074. Every operation works on the exact
quotient of two natural numbers and rounds once, to the nearest number and from a tie to the even mantissa.
-/

namespace RegexTree.Number

/-- A floating point number. The value of a finite one is `mantissa * 2 ^ exponent`. -/
inductive Binary64 where
  | finite (negative : Bool) (mantissa : Nat) (exponent : Int)
  | infinite (negative : Bool)
  | nan
  deriving DecidableEq

namespace Binary64

/-- The least exponent. -/
def leastExponent : Int := -1074

/-- The greatest exponent. -/
def greatestExponent : Int := 971

/-- Zero. -/
def zero (negative : Bool) : Binary64 := finite negative 0 leastExponent

/-- The integer nearest to a quotient, and of two the even one. -/
def roundQuotient (num den : Nat) : Nat :=
  let q := num / den
  let r := num % den
  if 2 * r < den ∨ (2 * r = den ∧ q % 2 = 0) then q else q + 1

/-- The quotient of two numbers divided by `2 ^ e`, as a quotient. -/
def shift (num den : Nat) (e : Int) : Nat × Nat := (num * Nat.pow 2 (-e).toNat, den * Nat.pow 2 e.toNat)

/-- The exponent at which the quotient of two positive numbers has 53 binary digits before the point. -/
def exponentOf (num den : Nat) : Int :=
  let guess : Int := (num.log2 : Int) - den.log2 - 52
  let (n, d) := shift num den guess
  if n / d < Nat.pow 2 52 then guess - 1 else guess

/-- The number nearest to a quotient. -/
def ofQuotient (negative : Bool) (num den : Nat) : Binary64 :=
  if num = 0 then zero negative
  else
    let e := max (exponentOf num den) leastExponent
    let (n, d) := shift num den e
    let m := roundQuotient n d
    let (m, e) := if m = Nat.pow 2 53 then (Nat.pow 2 52, e + 1) else (m, e)
    if greatestExponent < e then infinite negative else finite negative m e

/-- The number nearest to a natural number. -/
def ofNat (n : Nat) : Binary64 := ofQuotient false n 1

/-- The number nearest to `digits * 10 ^ exponent`. Far beyond the range nothing needs to be computed: a value of more than
310 digits before the point is infinite, and one whose first 330 places after the point are zero is zero. -/
def ofDecimal (negative : Bool) (digits : Nat) (exponent : Int) : Binary64 :=
  if digits = 0 then zero negative
  else
    let places : Int := (Nat.toDigits 10 digits).length + exponent
    if 310 < places then infinite negative
    else if places < -330 then zero negative
    else ofQuotient negative (digits * Nat.pow 10 exponent.toNat) (Nat.pow 10 (-exponent).toNat)

/-- The magnitude of a finite number as a quotient. -/
def quotient (mantissa : Nat) (exponent : Int) : Nat × Nat :=
  (mantissa * Nat.pow 2 exponent.toNat, Nat.pow 2 (-exponent).toNat)

/-- The number is finite. -/
def isFinite : Binary64 → Bool
  | finite .. => true
  | _ => false

/-- The number is a zero of either sign. -/
def isZero : Binary64 → Bool
  | finite _ m _ => m == 0
  | _ => false

/-- The number with the other sign. -/
def neg : Binary64 → Binary64
  | finite s m e => finite (!s) m e
  | infinite s => infinite (!s)
  | nan => nan

/-- The rounded product of two numbers, the second of them finite and not zero. -/
def scaleUp : Binary64 → Binary64 → Binary64
  | finite s m e, finite t k f =>
    let (n, d) := quotient m e
    let (n', d') := quotient k f
    ofQuotient (s != t) (n * n') (d * d')
  | x, _ => x

/-- The rounded quotient of two numbers, the second of them finite and not zero. -/
def scaleDown : Binary64 → Binary64 → Binary64
  | finite s m e, finite t k f =>
    let (n, d) := quotient m e
    let (n', d') := quotient k f
    ofQuotient (s != t) (n * d') (d * n')
  | x, _ => x

end Binary64

end RegexTree.Number
