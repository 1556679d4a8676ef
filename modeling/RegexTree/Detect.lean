import RegexTree.Format
import RegexTree.Text.Alphanumeric
import RegexTree.Text.Blank

/-!
# Detecting the format of a text

A text in braces is taken for a JSON object and one in brackets for a JSON array, white space around it aside. Any other text
with a line that looks like a field, or like an item that begins with one, is taken for YAML.
-/

namespace RegexTree

/-- The lines of a text. A carriage return before a line break stays at the end of its line. -/
def textLines : List Char → List (List Char)
  | [] => [[]]
  | c :: cs =>
    if c = '\n' then [] :: textLines cs
    else
      match textLines cs with
      | [] => [[c]]
      | line :: rest => (c :: line) :: rest

/-- A character that the key of a field may have. -/
def isKeyChar (c : Char) : Bool := Text.isAlphanumeric c || c == '_' || c == '-' || c == ' '

/-- The line without the dash of an item. -/
def dropDash : List Char → List Char
  | '-' :: ' ' :: rest => rest
  | line => line

/-- The line has a key and a colon behind it, followed by white space or by nothing. -/
def isFieldLine (line : List Char) : Bool :=
  let line := dropDash (Text.trimStart line)
  let key := Text.trimEnd (line.takeWhile (· != ':'))
  match line.dropWhile (· != ':') with
  | [] => false
  | _ :: rest => !key.isEmpty && key.all isKeyChar && rest.head?.all Text.isBlank

/-- Some line looks like a field. -/
def hasFieldLine (cs : List Char) : Bool := (textLines cs).any isFieldLine

/-- The text begins and ends with two different characters. -/
def isEnclosed (first last : Char) (cs : List Char) : Bool := cs.head? == some first && cs.getLast? == some last

namespace Format

/-- The format of a text that is enclosed as JSON, or that has a field. -/
def detectEnclosed (first last : Char) (text : String) : Option Format :=
  let cs := Text.trim text.toList
  if isEnclosed first last cs then some json else if hasFieldLine cs then some yaml else none

/-- The format of a text that states one pattern. -/
def detect (text : String) : Option Format := detectEnclosed '\x7b' '\x7d' text

/-- The format of a text that states a list of patterns. -/
def detectList (text : String) : Option Format := detectEnclosed '[' ']' text

end Format

end RegexTree
