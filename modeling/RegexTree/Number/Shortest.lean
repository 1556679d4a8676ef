import RegexTree.Number.Binary64

/-!
# The fewest digits that read back

A finite number stands for every real number that rounds to it. `shortest` looks for the fewest decimal digits among those:
on the grid of one digit, of two, and so on it tests the two neighbours of the number, and the first grid with a hit wins. Of
two hits the nearer one is taken and from a tie the greater. `text` writes the digits out, always in positional notation.
-/

namespace RegexTree.Number.Binary64

/-- The reals that round to a number, in quarters of its last binary place: the lower end, the upper end, and whether the
ends belong to it. Below a power of two the spacing is halved. -/
def interval (mantissa : Nat) (exponent : Int) : Nat × Nat × Bool :=
  (if mantissa = Nat.pow 2 52 ∧ leastExponent < exponent then 4 * mantissa - 1 else 4 * mantissa - 2, 4 * mantissa + 2,
    mantissa % 2 == 0)

/-- The number of decimal digits before the point of a positive quotient, zero or less for a value below one. -/
def decimalPlaces (num den : Nat) : Int :=
  let guess : Int := ((num.log2 : Int) - den.log2 - 1) * 30103 / 100000
  let isBelow (k : Int) : Bool := num * Nat.pow 10 (-k).toNat < den * Nat.pow 10 k.toNat
  ([guess, guess + 1, guess + 2].find? isBelow).getD (guess + 3)

/-- The point of the decimal grid of step `10 ^ step` that the number is written as, if one rounds to the number. -/
def onGrid? (mantissa : Nat) (exponent step : Int) : Option Nat :=
  let (low, high, closed) := interval mantissa exponent
  -- All in units of a common denominator: a point `x` of the grid is `x * unit`, a quarter place is `quarter`.
  let unit := Nat.pow 10 step.toNat * Nat.pow 2 (2 - exponent).toNat
  let quarter := Nat.pow 10 (-step).toNat * Nat.pow 2 (exponent - 2).toNat
  let value := 4 * mantissa * quarter
  let below := value / unit
  let hits (x : Nat) : Bool :=
    if closed then low * quarter ≤ x * unit && x * unit ≤ high * quarter
    else low * quarter < x * unit && x * unit < high * quarter
  match hits below, hits (below + 1) with
  | true, true => if value - below * unit < (below + 1) * unit - value then some below else some (below + 1)
  | true, false => some below
  | false, true => some (below + 1)
  | false, false => none

/-- The fewest digits that read back as a positive number, as an integer and a power of ten. Seventeen digits always do. -/
def shortest (mantissa : Nat) (exponent : Int) : Nat × Int :=
  let (num, den) := quotient mantissa exponent
  let places := decimalPlaces num den
  let steps := (List.range 17).map (fun (n : Nat) => places - (n : Int) - 1)
  (steps.findSome? (fun step => (onGrid? mantissa exponent step).map (·, step))).getD (num / den, 0)

/-- Digits with the point after the first `point` of them, filled up with zeros where there are too few. -/
def positional (digits : List Char) (point : Int) : List Char :=
  if point ≤ 0 then '0' :: '.' :: List.replicate (-point).toNat '0' ++ digits
  else if digits.length ≤ point.toNat then digits ++ List.replicate (point.toNat - digits.length) '0'
  else digits.take point.toNat ++ '.' :: digits.drop point.toNat

/-- The magnitude of a finite number in positional notation, without a point where there is no fraction. -/
def magnitudeText (mantissa : Nat) (exponent : Int) : List Char :=
  if mantissa = 0 then ['0']
  else
    let (n, step) := shortest mantissa exponent
    let digits := Nat.toDigits 10 n
    let significant := (digits.reverse.dropWhile (· == '0')).reverse
    positional significant (digits.length + step)

/-- The text of a number. -/
def text : Binary64 → String
  | finite negative m e => String.ofList (if negative then '-' :: magnitudeText m e else magnitudeText m e)
  | infinite negative => if negative then "-inf" else "inf"
  | nan => "NaN"

end RegexTree.Number.Binary64
