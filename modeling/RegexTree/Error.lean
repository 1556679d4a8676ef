import RegexTree.Format
import RegexTree.Number.Numeral
import RegexTree.Pattern

/-!
# Errors: what went wrong, and at which node

An error has a cause and, where it arose at a node, the location of that node. `Error.orAt` adds a location only where there is
none, so an error that climbs a tree keeps the innermost one.
-/

namespace RegexTree

/-- Why an input holds no pattern. -/
inductive Malformation where
  | unreadable (format : Format)
  | neitherObjectNorMapping
  | neitherArrayNorList
  | missingType
  | missingProperties
  | numberAsValue (number : Number.Numeral)
  | flagAsValue (flag : Bool)
  | valueOfGroup
  | other (detail : String)
  deriving DecidableEq

/-- The wording of a malformation. -/
def Malformation.message : Malformation → String
  | unreadable format => "invalid " ++ format.name
  | neitherObjectNorMapping => "input is neither a JSON object nor a YAML mapping"
  | neitherArrayNorList => "input is neither a JSON array nor a YAML list"
  | missingType => "missing required field `Type`"
  | missingProperties => "group is missing `Properties`"
  | numberAsValue number => "numeric `Value` " ++ number.text ++ " is not text; quote it to keep it verbatim"
  | flagAsValue flag => "boolean `Value` " ++ toString flag ++ " is not text; quote it to keep it verbatim"
  | valueOfGroup => "a Group holds child patterns, not a value"
  | other detail => detail

/-- What went wrong. -/
inductive Cause where
  | malformed (why : Malformation)
  | invalidType (name : String)
  | invalidAnchor (value : String)
  | invalidCharacterClass (value : String)
  | invalidRange (min max : UInt32)
  | missingGroupName
  | emptyGroup
  | depthExceeded (limit : Nat)
  deriving DecidableEq

/-- The wording of a cause. -/
def Cause.message : Cause → String
  | malformed why => "malformed input: " ++ why.message
  | invalidType name => "invalid pattern type '" ++ name ++ "'; valid types are: " ++ NodeType.names
  | invalidAnchor value =>
    "invalid anchor '" ++ value ++ "'; valid names are: " ++ Anchor.names ++ "; valid literals are: " ++ Anchor.tokens
  | invalidCharacterClass value =>
    "invalid character class '" ++ value ++ "'; valid names are: " ++ CharacterClass.names ++ "; valid literals are: " ++
      CharacterClass.tokens
  | invalidRange min max => "invalid quantifier range: max " ++ max.toNat.repr ++ " is less than min " ++ min.toNat.repr
  | missingGroupName => "named capturing group requires a non-empty name"
  | emptyGroup => "group must contain at least one pattern"
  | depthExceeded limit => "pattern nesting exceeds the maximum depth of " ++ limit.repr

/-- A node of a tree: the child indices from the root down to it, its kind and its identifier as far as they are known. -/
structure Location where
  path : List Nat := []
  type : Option NodeType := none
  id : Option String := none
  deriving DecidableEq

namespace Location

/-- The location is the root of its tree. -/
def isRoot (l : Location) : Bool := l.path.isEmpty

/-- A path as text, a slash before each index. -/
def pathText : List Nat → String
  | [] => ""
  | i :: is => "/" ++ i.repr ++ pathText is

/-- The kind and the identifier in parentheses, as far as they are known. -/
def nodeText : Option NodeType → Option String → String
  | some type, some id => " (" ++ type.name ++ ", id '" ++ id ++ "')"
  | some type, none => " (" ++ type.name ++ ")"
  | none, some id => " (id '" ++ id ++ "')"
  | none, none => ""

/-- The location as messages show it; the root is a lone slash. -/
def text (l : Location) : String := (if l.path.isEmpty then "/" else pathText l.path) ++ nodeText l.type l.id

/-- The location in a tree that stands as child number `i` of another. -/
def under (i : Nat) (l : Location) : Location := { l with path := i :: l.path }

end Location

/-- A failure. -/
structure Error where
  cause : Cause
  location : Option Location := none
  deriving DecidableEq

namespace Error

/-- The failure at a location, unless it has one already. -/
def orAt (e : Error) (l : Location) : Error := { e with location := e.location.getD l }

/-- The outcome, where a failure has the location unless it has one already. -/
def locate {α : Type} (l : Location) (outcome : Except Error α) : Except Error α := outcome.mapError (·.orAt l)

/-- Locating what two steps give is locating what each of them gives. -/
theorem locate_bind {α β : Type} (l : Location) (first : Except Error α) (second : α → Except Error β) :
    locate l (first >>= second) = locate l first >>= fun a => locate l (second a) := by
  cases first <;> rfl

/-- The wording of a failure. -/
def message (e : Error) : String :=
  match e.location with
  | some l => e.cause.message ++ " at pattern " ++ l.text
  | none => e.cause.message

/-- An input without a pattern, at no particular node. -/
def malformed (why : Malformation) : Error := { cause := .malformed why }

end Error

/-- The failure of a cause at no location. -/
def Cause.unlocated (cause : Cause) : Error := { cause }

/-- The failure of a cause at a location. -/
def Cause.at (cause : Cause) (location : Location) : Error := { cause, location := some location }

end RegexTree
