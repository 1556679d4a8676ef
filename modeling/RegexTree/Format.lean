/-!
# The two formats a pattern tree is written in
-/

namespace RegexTree

/-- A serialization format. -/
inductive Format where
  | json | yaml
  deriving DecidableEq

/-- The name a reader of messages knows the format by. -/
def Format.name : Format → String
  | .json => "JSON"
  | .yaml => "YAML"

end RegexTree
