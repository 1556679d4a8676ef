import RegexTree.Number.Shortest

/-!
# Numbers as a document states them
-/

namespace RegexTree.Number

/-- A number read from a document. -/
inductive Numeral where
  | integer (value : Int)
  | float (value : Binary64)
  deriving DecidableEq

/-- An integer in decimal. -/
def integerText (n : Int) : String := if n < 0 then "-" ++ n.natAbs.repr else n.natAbs.repr

/-- The text of a number. -/
def Numeral.text : Numeral → String
  | integer value => integerText value
  | float value => value.text

end RegexTree.Number
