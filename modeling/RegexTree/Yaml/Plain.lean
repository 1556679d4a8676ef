import RegexTree.Datum

/-!
# What plain scalars state

Where any shape is allowed, a plain scalar is null, a flag, an integer, a floating point number or else a text, in this order.
Integers are decimal without leading zeros, or hexadecimal, octal or binary behind a mark.
-/

namespace RegexTree.Yaml

open Number

/-- The text behind a beginning, if it has it. -/
def behind? : List Char → List Char → Option (List Char)
  | [], cs => some cs
  | _ :: _, [] => none
  | p :: ps, c :: cs => if p == c then behind? ps cs else none

/-- The text begins with a sign. -/
def isSigned (cs : List Char) : Bool := cs.head? == some '+' || cs.head? == some '-'

/-- The text without a plus before it. -/
def withoutPlus (cs : List Char) : List Char := (behind? ['+'] cs).getD cs

/-- The value of a digit of a base, of which the letters come after the decimal digits. -/
def digitOf? (base : Nat) (c : Char) : Option Nat :=
  let n := c.toNat
  let value :=
    if 0x30 ≤ n ∧ n ≤ 0x39 then n - 0x30
    else if 0x41 ≤ n ∧ n ≤ 0x5A then n - 0x37
    else if 0x61 ≤ n ∧ n ≤ 0x7A then n - 0x57
    else base
  if value < base then some value else none

/-- The value of digits of a base, of which there must be one at least. -/
def digitsOf? (base : Nat) (cs : List Char) : Option Nat :=
  if cs.isEmpty then none else cs.foldlM (fun n c => (digitOf? base c).map (base * n + ·)) 0

/-- The bases with the marks that stand before their digits. -/
def markedBases : List (List Char × Nat) := [(['0', 'x'], 16), (['0', 'o'], 8), (['0', 'b'], 2)]

/-- Digits with a zero before them, which are no number. -/
def isPadded (cs : List Char) : Bool :=
  let digits := if isSigned cs then cs.drop 1 else cs
  1 < digits.length && digits.head? == some '0' && digits.all Char.isDigit

/-- Digits of a base up to a bound. -/
def boundedDigits? (base bound : Nat) (cs : List Char) : Option Nat := (digitsOf? base cs).filter (· ≤ bound)

/-- An integer without a minus, up to a bound. -/
def natural? (bound : Nat) (cs : List Char) : Option Nat :=
  let rest := withoutPlus cs
  let marked := markedBases.filterMap fun (mark, base) => (behind? mark rest).map (·, base)
  if marked.any (fun m => isSigned m.1) then none
  else
    match marked.findSome? fun (digits, base) => boundedDigits? base bound digits with
    | some n => some n
    | none => if isSigned rest || isPadded cs then none else boundedDigits? 10 bound rest

/-- An integer behind a minus, down to a bound. -/
def negative? (bound : Nat) (cs : List Char) : Option Int :=
  match behind? ['-'] cs with
  | none => none
  | some rest =>
    let marked := markedBases.filterMap fun (mark, base) => (behind? mark rest).map (·, base)
    match marked.findSome? fun (digits, base) => boundedDigits? base bound digits with
    | some n => some (-n)
    | none => if isPadded cs then none else (boundedDigits? 10 bound rest).map (fun n => -n)

/-- Null. -/
def isNull (cs : List Char) : Bool := ["~", "null", "Null", "NULL"].contains (String.ofList cs)

/-- A flag. -/
def flagOf? (cs : List Char) : Option Bool :=
  let word := String.ofList cs
  if ["true", "True", "TRUE"].contains word then some true
  else if ["false", "False", "FALSE"].contains word then some false
  else none

/-- Decimal digits with a point among them or not, of which there must be one at least: the number without the point, the
number of places behind it, and the text behind them. -/
def readDecimal? (cs : List Char) : Option (Nat × Nat × List Char) :=
  let whole := cs.takeWhile Char.isDigit
  let rest := cs.dropWhile Char.isDigit
  let (fraction, rest) :=
    match rest with
    | '.' :: rest => (rest.takeWhile Char.isDigit, rest.dropWhile Char.isDigit)
    | rest => ([], rest)
  (digitsOf? 10 (whole ++ fraction)).map (·, fraction.length, rest)

/-- The exponent behind decimal digits, up to the end. -/
def exponent? : List Char → Option Int
  | [] => some 0
  | c :: rest => do
    guard (c == 'e' || c == 'E')
    match rest with
    | '-' :: digits => (digitsOf? 10 digits).map (fun n => -(n : Int))
    | '+' :: digits => (digitsOf? 10 digits).map Int.ofNat
    | digits => (digitsOf? 10 digits).map Int.ofNat

/-- A finite number in decimal notation, without a plus. -/
def decimal? (cs : List Char) : Option Binary64 := do
  let (isNegative, rest) :=
    match cs with
    | '-' :: rest => (true, rest)
    | cs => (false, cs)
  let (digits, places, rest) ← readDecimal? rest
  let exponent ← exponent? rest
  let x := Binary64.ofDecimal isNegative digits (exponent - places)
  guard x.isFinite
  return x

/-- A floating point number: infinite, none, or finite in decimal notation. -/
def float? (cs : List Char) : Option Binary64 :=
  let rest := withoutPlus cs
  if rest.length < cs.length ∧ isSigned rest then none
  else if [".inf", ".Inf", ".INF"].contains (String.ofList rest) then some (.infinite false)
  else if ["-.inf", "-.Inf", "-.INF"].contains (String.ofList cs) then some (.infinite true)
  else if [".nan", ".NaN", ".NAN"].contains (String.ofList cs) then some .nan
  else decimal? rest

/-- The integer that a scalar states, which has at most 64 bits and is refused if it has more but at most 128. -/
def integer? (cs : List Char) : Option (Option Datum) :=
  match natural? (UInt64.size - 1) cs, negative? (Nat.pow 2 63) cs with
  | some n, _ => some (some (.natural n))
  | none, some n => some (some (.signed n))
  | none, none =>
    if (natural? (Nat.pow 2 128 - 1) cs).isSome || (negative? (Nat.pow 2 127) cs).isSome then some none else none

/-- What a plain scalar states. -/
def plainDatum? (cs : List Char) : Option Datum :=
  if cs.isEmpty || isNull cs then some .null
  else
    match flagOf? cs with
    | some value => some (.flag value)
    | none =>
      match integer? cs with
      | some n => n
      | none =>
        match (if isPadded cs then none else float? cs) with
        | some x => some (.float x)
        | none => some (.text (String.ofList cs))

/-- A text that a plain scalar cannot state: it would be read as something else, or it is digits that only look like a number. -/
def isAmbiguous (cs : List Char) : Bool :=
  isPadded cs ||
    match plainDatum? cs with
    | some (.text _) => false
    | _ => true

end RegexTree.Yaml
