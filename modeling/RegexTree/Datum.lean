import RegexTree.Draft

/-!
# Data of any shape

What a document holds at a place where every shape is allowed, which is where a node states its value. Entries keep their
order, and a key may stand more than once. A number written without a sign is told apart from one written with a minus, since
only the first kind can stand for the position of a field.
-/

namespace RegexTree

/-- A datum of any shape. -/
inductive Datum where
  | null
  | flag (value : Bool)
  | natural (value : Nat)
  | signed (value : Int)
  | float (value : Number.Binary64)
  | text (value : String)
  | list (items : List Datum)
  | map (entries : List (Datum × Datum))

namespace Datum

/-- The greatest integer a value may hold. A greater one is held as the nearest floating point number. -/
def greatestInteger : Nat := Nat.pow 2 63 - 1

/-- Whether a key names the only field of a value object, by name or by position. A key of a kind that cannot name a field is
refused. -/
def namesValue? : Datum → Option Bool
  | text key => some (key == "Value")
  | natural key => some (key == 0)
  | _ => none

mutual
/-- The value a datum states. An object may also be written as a list of its fields. -/
def toDraftValue? : Datum → Option DraftValue
  | null => some .null
  | flag value => some (.flag value)
  | natural value => some (.number (if value ≤ greatestInteger then .integer value else .float (.ofNat value)))
  | signed value => some (.number (.integer value))
  | float value => some (.number (.float value))
  | text value => some (.text value)
  | list items => fieldOfItems? items
  | map entries => fieldOfEntries? none entries

/-- The object that a list of its fields states. It has one field, which may be missing. -/
def fieldOfItems? : List Datum → Option DraftValue
  | [] => some (.object .null)
  | item :: rest => do
    guard rest.isEmpty
    return .object (← item.toDraftValue?)

/-- The object that entries state, where `found` is what the entries before them state. Other fields are passed over, a second
value is refused. -/
def fieldOfEntries? (found : Option DraftValue) : List (Datum × Datum) → Option DraftValue
  | [] => some (.object (found.getD .null))
  | (key, value) :: rest => do
    if ← key.namesValue? then
      guard found.isNone
      fieldOfEntries? (some (← value.toDraftValue?)) rest
    else
      fieldOfEntries? found rest
end

end Datum

end RegexTree
