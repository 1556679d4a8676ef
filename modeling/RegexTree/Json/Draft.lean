import RegexTree.Json.Reader
import RegexTree.Shape

/-!
# Drafts in JSON

Records are objects, or arrays of their fields in order. The name of an alternative is a string, or the key of an object that
holds null. Arrays and objects nest at most 127 levels deep where they are looked into.
-/

namespace RegexTree.Json

/-- The levels of nesting that are looked into. -/
def levels : Nat := 127

/-- The fields of a record whose fields have the given names. -/
def fields? (names : List String) : Json → Option (List (String × Json))
  | object members => members.mapM (fun (key, value) => key.map (·, value))
  | array items => if items.length ≤ names.length then some (names.zip items) else none
  | _ => none

/-- The items of an array. -/
def items? : Json → Option (List Json)
  | array items => some items
  | _ => none

/-- A string of characters. -/
def string? : Json → Option String
  | string text => text
  | _ => none

/-- A count, which is written as an integer that fits 32 bits. -/
def count? : Json → Option UInt32
  | number literal => do
    let .integer n ← literal.numeral? | none
    guard (0 ≤ n ∧ n < UInt32.size)
    return UInt32.ofNat n.toNat
  | _ => none

/-- A flag. -/
def flag? : Json → Option Bool
  | flag value => some value
  | _ => none

/-- The name of an alternative. -/
def choice? (levels : Nat) : Json → Option String
  | string text => text
  | object [(key, null)] => if 0 < levels then key else none
  | _ => none

/-- A value of any shape, with so many levels left. -/
def datum? : (levels : Nat) → Json → Option Datum
  | _, null => some .null
  | _, flag value => some (.flag value)
  | _, number literal =>
    literal.numeral?.map fun
      | .integer n => if 0 ≤ n then .natural n.toNat else .signed n
      | .float x => .float x
  | _, string text => text.map .text
  | 0, _ => none
  | levels + 1, array items => (items.mapM (datum? levels)).map .list
  | levels + 1, object members =>
    (members.mapM fun (key, value) => do return (Datum.text (← key), ← datum? levels value)).map .map

/-- How JSON presents a document. No part refers to another. -/
def shape : Shape Json where
  resolve := pure
  isBlank _ := false
  fields names j := (fields? names j : Option _)
  items j := (items? j : Option _)
  given
    | null => return none
    | j => return some j
  text j := (string? j : Option _)
  count j := (count? j : Option _)
  flag j := (flag? j : Option _)
  choice levels j := (choice? levels j : Option _)
  datum levels j := (datum? levels j : Option _)

/-- What a reading gives for a whole text. -/
def parse? {β : Type} (read : Shape Json → Nat → Json → Reading β) (text : String) : Option β := do
  let j ← ofText? text
  (read shape levels j).run' 0

end RegexTree.Json
