import RegexTree.Document
import RegexTree.Text.Hexadecimal

/-!
# Writing JSON

Without any white space, or with a line for each item and each field, indented by two places for each level. Strings escape
quotes, backslashes and control characters and nothing else.
-/

namespace RegexTree.Json

/-- Where white space is written. -/
inductive Layout where
  | compact | indented
  deriving DecidableEq

namespace Layout

/-- What stands before an item, a field or a closing bracket at a level of nesting. -/
def lineBreak : Layout → Nat → List Char
  | compact, _ => []
  | indented, level => '\n' :: List.replicate (2 * level) ' '

/-- What stands between a key's colon and its value. -/
def gap : Layout → List Char
  | compact => []
  | indented => [' ']

end Layout

/-- A character as a string holds it. -/
def escape (c : Char) : List Char :=
  if c = '"' then ['\\', '"']
  else if c = '\\' then ['\\', '\\']
  else if c = '\x08' then ['\\', 'b']
  else if c = '\x0c' then ['\\', 'f']
  else if c = '\n' then ['\\', 'n']
  else if c = '\r' then ['\\', 'r']
  else if c = '\t' then ['\\', 't']
  else if c.toNat < 0x20 then ['\\', 'u', '0', '0', Text.hexDigit .small (c.toNat / 16), Text.hexDigit .small (c.toNat % 16)]
  else [c]

/-- A string with its quotes. -/
def quote (s : String) : List Char := '"' :: s.toList.flatMap escape ++ ['"']

mutual
/-- A document at a level of nesting. -/
def write (layout : Layout) (level : Nat) : Document → List Char
  | .null => ['n', 'u', 'l', 'l']
  | .flag true => ['t', 'r', 'u', 'e']
  | .flag false => ['f', 'a', 'l', 's', 'e']
  | .number value => value.text.toList
  | .text value => quote value
  | .list [] => ['[', ']']
  | .list (item :: items) =>
    '[' :: layout.lineBreak (level + 1) ++ write layout (level + 1) item ++ writeItems layout (level + 1) items ++
      layout.lineBreak level ++ [']']
  | .record [] => ['\x7b', '\x7d']
  | .record ((key, value) :: fields) =>
    '\x7b' :: layout.lineBreak (level + 1) ++ quote key ++ ':' :: layout.gap ++ write layout (level + 1) value ++
      writeFields layout (level + 1) fields ++ layout.lineBreak level ++ ['\x7d']

/-- The items after the first. -/
def writeItems (layout : Layout) (level : Nat) : List Document → List Char
  | [] => []
  | item :: items => ',' :: layout.lineBreak level ++ write layout level item ++ writeItems layout level items

/-- The fields after the first. -/
def writeFields (layout : Layout) (level : Nat) : List (String × Document) → List Char
  | [] => []
  | (key, value) :: fields =>
    ',' :: layout.lineBreak level ++ quote key ++ ':' :: layout.gap ++ write layout level value ++
      writeFields layout level fields
end

/-- The text of a document. -/
def text (layout : Layout) (document : Document) : String := String.ofList (write layout 0 document)

end RegexTree.Json
