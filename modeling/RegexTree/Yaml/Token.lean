/-!
# YAML tokens

What a YAML text consists of: scalars, indicators, and the beginnings and ends of block collections, which no character stands
for.
-/

namespace RegexTree.Yaml

/-- How a scalar is written. -/
inductive Style where
  | plain | singleQuoted | doubleQuoted | literal | folded
  deriving DecidableEq

/-- A token. -/
inductive Token where
  | streamEnd
  | version (major minor : Nat)
  | tagHandle (handle start : List Char)
  | documentStart
  | documentEnd
  | blockSequenceStart
  | blockMappingStart
  | blockEnd
  | flowSequenceStart
  | flowSequenceEnd
  | flowMappingStart
  | flowMappingEnd
  | blockEntry
  | flowEntry
  | key
  | value
  | reference (name : String)
  | anchor (name : String)
  | tag (handle suffix : List Char)
  | scalar (text : String) (style : Style)
  deriving DecidableEq

end RegexTree.Yaml
