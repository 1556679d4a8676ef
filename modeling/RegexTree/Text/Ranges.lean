/-!
# Ranges of characters
-/

namespace RegexTree.Text

/-- Ranges of character numbers, each from its first to its last member. -/
abbrev Ranges := List (Nat × Nat)

/-- A range holds the character. -/
def Ranges.contains (ranges : Ranges) (c : Char) : Bool := ranges.any (fun r => r.1 ≤ c.toNat && c.toNat ≤ r.2)

end RegexTree.Text
