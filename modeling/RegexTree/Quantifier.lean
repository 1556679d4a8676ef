/-!
# Quantifiers

How many times a node may repeat, every part of it optional. `Quantifier.suffix` is the text that follows a fragment of a
regex; it fails in one case, when a maximum is below its minimum.
-/

namespace RegexTree

/-- How many times a node may repeat. A quantifier with no part set asks for nothing. -/
structure Quantifier where
  min : Option UInt32 := none
  max : Option UInt32 := none
  exactly : Option UInt32 := none
  lazy : Option Bool := none
  greedy : Option Bool := none
  deriving DecidableEq

namespace Quantifier

/-- Exactly `n` times. -/
def times (n : UInt32) : Quantifier := { exactly := some n }

/-- At least `n` times. -/
def atLeast (n : UInt32) : Quantifier := { min := some n }

/-- At most `n` times. -/
def atMost (n : UInt32) : Quantifier := { max := some n }

/-- Between `n` and `m` times. -/
def between (n m : UInt32) : Quantifier := { min := some n, max := some m }

/-- Any number of times, without a stated bound. -/
def unbounded : Quantifier := { greedy := some true }

/-- The same, as few times as possible. -/
def asLazy (q : Quantifier) : Quantifier := { q with lazy := some true }

/-- No part is set. -/
def isEmpty (q : Quantifier) : Bool := q == {}

/-- The text ends in an operator of repetition. -/
def endsInRepetition (preceding : String) : Bool :=
  match preceding.toList.getLast? with
  | some c => c == '*' || c == '+' || c == '?'
  | none => false

/-- A bare star may follow `preceding`: the quantifier is greedy, states no count, and no other repetition stands before. -/
def allowsStar (q : Quantifier) (preceding : String) : Bool :=
  q.greedy == some true && q.exactly.isNone && q.min.isNone && q.max.isNone && !endsInRepetition preceding

/-- A maximum below its minimum. -/
structure BadRange where
  min : UInt32
  max : UInt32
  deriving DecidableEq

/-- A count in decimal. -/
def numeral (n : UInt32) : String := n.toNat.repr

/-- The bounds of the two limits, in the shortest spelling they have. -/
def rangeText : Option UInt32 → Option UInt32 → Except BadRange String
  | none, none => .ok ""
  | some min, none => .ok (if min = 0 then "*" else if min = 1 then "+" else "\x7b" ++ numeral min ++ ",\x7d")
  | none, some max => .ok ("\x7b," ++ numeral max ++ "\x7d")
  | some min, some max =>
    if min = 0 ∧ max = 1 then .ok "?"
    else if max < min then .error ⟨min, max⟩
    else .ok ("\x7b" ++ numeral min ++ "," ++ numeral max ++ "\x7d")

/-- The stated bounds: a positive exact count stands before the two limits, a zero one is passed over. -/
def bounds (q : Quantifier) : Except BadRange String :=
  match q.exactly with
  | some n => if 0 < n then .ok ("\x7b" ++ numeral n ++ "\x7d") else rangeText q.min q.max
  | none => rangeText q.min q.max

/-- The suffix that follows `preceding`: the bounds, a star where it is allowed, and a question mark for a lazy quantifier
whose suffix does not end in one. -/
def suffix (q : Quantifier) (preceding : String) : Except BadRange String := do
  let bounds ← q.bounds
  let suffix := if q.allowsStar preceding then bounds ++ "*" else bounds
  return if q.lazy == some true && suffix.toList.getLast? != some '?' then suffix ++ "?" else suffix

end Quantifier

end RegexTree
