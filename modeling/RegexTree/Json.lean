import RegexTree.Number.Numeral

/-!
# JSON values

A JSON text as its grammar reads it. Numbers keep their digits and strings may be ill-formed, since a number out of range or a
lone half of a surrogate pair matters only where the value is used.
-/

namespace RegexTree.Json

/-- The parts of a number. -/
structure NumberLiteral where
  negative : Bool
  whole : List Char
  fraction : Option (List Char)
  exponent : Option (Bool × List Char)
  deriving DecidableEq

end Json

/-- A JSON value. A string is `none` where its escapes denote no characters. -/
inductive Json where
  | null
  | flag (value : Bool)
  | number (literal : Json.NumberLiteral)
  | string (text : Option String)
  | array (items : List Json)
  | object (members : List (Option String × Json))

namespace Json.NumberLiteral

open Number

/-- The greatest significand that is kept digit by digit. -/
def greatestSignificand : Nat := UInt64.size - 1

/-- The value of a decimal digit. -/
def digitValue (c : Char) : Nat := c.toNat - '0'.toNat

/-- The value of decimal digits. -/
def digitsValue (cs : List Char) : Nat := cs.foldl (fun n c => 10 * n + digitValue c) 0

/-- Digits appended to a significand as long as it stays within bounds, and the digits that are left. -/
def accumulate (n : Nat) : List Char → Nat × List Char
  | [] => (n, [])
  | c :: cs =>
    let m := 10 * n + digitValue c
    if m ≤ greatestSignificand then accumulate m cs else (n, c :: cs)

/-- A significand times a power of ten, rounded at each step: one step where the power is at most 308, else first divisions by
the power of 308. The significand has at most twenty digits, so two such divisions leave zero and `steps = 3` is enough. -/
def scale : (steps : Nat) → Binary64 → Int → Option Binary64
  | 0, x, _ => some x
  | steps + 1, x, exponent =>
    if exponent.natAbs ≤ 308 then
      let power := Binary64.ofNat (Nat.pow 10 exponent.natAbs)
      let y := if 0 ≤ exponent then x.scaleUp power else x.scaleDown power
      if y.isFinite then some y else none
    else if x.isZero then some x
    else if 0 ≤ exponent then none
    else scale steps (x.scaleDown (Binary64.ofNat (Nat.pow 10 308))) (exponent + 308)

/-- The exponent that is written, zero where none is. -/
def statedExponent (l : NumberLiteral) : Int :=
  match l.exponent with
  | some (true, digits) => -(digitsValue digits : Int)
  | some (false, digits) => digitsValue digits
  | none => 0

/-- The number. An integer beyond 64 bits and a negative zero are floating point numbers; digits beyond the significand count
for the exponent before the point and for nothing after it. A number beyond the range of floating point is refused. -/
def numeral? (l : NumberLiteral) : Option Numeral :=
  let (n, dropped) := accumulate 0 l.whole
  let signed (x : Binary64) : Numeral := .float (if l.negative then x.neg else x)
  if l.fraction.isNone && l.exponent.isNone && dropped.isEmpty then
    if !l.negative then some (.integer n)
    else if n = 0 ∨ Nat.pow 2 63 < n then some (signed (.ofNat n))
    else some (.integer (-n))
  else
    let fraction := l.fraction.getD []
    let (n, ignored) := accumulate n fraction
    let exponent := l.statedExponent + dropped.length - (fraction.length - ignored.length : Nat)
    (scale 3 (.ofNat n) exponent).map signed

end Json.NumberLiteral

end RegexTree
