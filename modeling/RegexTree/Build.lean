import RegexTree.Error

/-!
# Building patterns

The constructors check the value of an anchor or a character class, so that a tree built with them is resolved: each such
value stands for a token.
-/

namespace RegexTree

/-- The token of a value in a leaf of this kind, or why there is none. -/
def LeafKind.token : LeafKind → String → Except Cause String
  | literal, text => .ok text
  | anchor, text => (Anchor.tokenOf? text).elim (.error (.invalidAnchor text)) .ok
  | characterClass, text => (CharacterClass.tokenOf? text).elim (.error (.invalidCharacterClass text)) .ok

/-- The kind of leaf, which a group is not. -/
def NodeType.leafKind? : NodeType → Option LeafKind
  | literal => some .literal
  | anchor => some .anchor
  | characterClass => some .characterClass
  | group => none

namespace Pattern

/-- A leaf whose value is known to stand for a token, or why it does not. -/
def checkedLeaf (notes : Notes) (kind : LeafKind) (value : Value) : Except Cause Pattern := do
  let _ ← kind.token value.resolve
  return leaf notes kind value

/-- A literal of the given text. -/
def literal (text : String) : Pattern := leaf {} .literal (.literal text)

/-- A leaf of the given kind of node, which must not be a group. -/
def ofValue (type : NodeType) (value : Value) : Except Cause Pattern :=
  match type.leafKind? with
  | some kind => checkedLeaf {} kind value
  | none => .error (.malformed .valueOfGroup)

/-- An anchor, by name or token. -/
def anchor (text : String) : Except Cause Pattern := ofValue .anchor (.literal text)

/-- A character class, by name, token or bracket expression. -/
def characterClass (text : String) : Except Cause Pattern := ofValue .characterClass (.literal text)

/-- A group around the given patterns. -/
def grouping (properties : Properties) (children : List Pattern) : Pattern := group {} properties children

/-- The node with an identifier. -/
def withId (id : String) (p : Pattern) : Pattern := p.withNotes { p.notes with id := some id }

/-- The node with a message. -/
def withMessage (message : String) (p : Pattern) : Pattern := p.withNotes { p.notes with message := some message }

/-- The node with another quantifier, or without one. -/
def withQuantifier (quantifier : Option Quantifier) (p : Pattern) : Pattern := p.withNotes { p.notes with quantifier }

/-- The leaf with another value, checked like the value of a new leaf. -/
def withValue (value : Value) : Pattern → Except Cause Pattern
  | leaf notes kind _ => checkedLeaf notes kind value
  | group .. => .error (.malformed .valueOfGroup)

/-- The group with other children; a leaf has none to replace. -/
def withChildren? (children : List Pattern) : Pattern → Option Pattern
  | leaf .. => none
  | group notes properties _ => some (group notes properties children)

end Pattern

end RegexTree
