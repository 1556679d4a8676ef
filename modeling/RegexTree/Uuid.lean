import RegexTree.IdSource
import RegexTree.Text.Hexadecimal

/-!
# Random identifiers

Identifiers of 128 bits in five groups of hexadecimal digits, of which six bits are fixed: the version, which is 4, and the
variant.
-/

namespace RegexTree.Uuid

/-- The identifier made of 122 bits of two numbers. -/
def ofBits (high low : Nat) : String :=
  let digits := Text.hexDigits .small
  String.ofList
    (digits 8 (high / Nat.pow 2 32) ++ '-' :: digits 4 (high / Nat.pow 2 16) ++ '-' :: '4' :: digits 3 high ++
      '-' :: Text.hexDigit .small (8 + low / Nat.pow 2 60 % 4) :: digits 3 (low / Nat.pow 2 48) ++ '-' :: digits 12 low)

/-- Identifiers drawn from a generator of random numbers. -/
def source : IdSource StdGen where
  next gen :=
    let (high, gen) := randNat gen 0 (UInt64.size - 1)
    let (low, gen) := randNat gen 0 (UInt64.size - 1)
    (ofBits high low, gen)

end RegexTree.Uuid
