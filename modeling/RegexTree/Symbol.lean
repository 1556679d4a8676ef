/-!
# Symbols: anchors and predefined character classes

Two closed tables. Each symbol has a name, as a configuration writes it, and a token, as a regex writes it. A value may be
given as either, and a character class may also be any bracket expression, which is taken as it stands.
-/

namespace RegexTree

/-- A zero-width assertion. -/
inductive Anchor where
  | startOfLine | endOfLine | wordBoundary | nonWordBoundary | startOfString | endOfString | endOfStringOrNewline
  | previousMatchEnd
  deriving DecidableEq

namespace Anchor

/-- Every anchor, in table order. -/
def all : List Anchor :=
  [startOfLine, endOfLine, wordBoundary, nonWordBoundary, startOfString, endOfString, endOfStringOrNewline, previousMatchEnd]

/-- The name a configuration uses. -/
def name : Anchor → String
  | startOfLine => "StartOfLine"
  | endOfLine => "EndOfLine"
  | wordBoundary => "WordBoundary"
  | nonWordBoundary => "NonWordBoundary"
  | startOfString => "StartOfString"
  | endOfString => "EndOfString"
  | endOfStringOrNewline => "EndOfStringOrNewline"
  | previousMatchEnd => "PreviousMatchEnd"

/-- The token a regex uses. -/
def token : Anchor → String
  | startOfLine => "^"
  | endOfLine => "$"
  | wordBoundary => "\\b"
  | nonWordBoundary => "\\B"
  | startOfString => "\\A"
  | endOfString => "\\z"
  | endOfStringOrNewline => "\\Z"
  | previousMatchEnd => "\\G"

/-- The anchor of a name. -/
def ofName? (name : String) : Option Anchor := all.find? (fun a => a.name == name)

/-- The anchor of a token. -/
def ofToken? (token : String) : Option Anchor := all.find? (fun a => a.token == token)

/-- The token a value stands for: a token stands for itself, a name for the token of its anchor. -/
def tokenOf? (value : String) : Option String :=
  if (ofToken? value).isSome then some value else (ofName? value).map token

/-- The names, for messages. -/
def names : String := ", ".intercalate (all.map name)

/-- The tokens, for messages. -/
def tokens : String := ", ".intercalate (all.map token)

end Anchor

/-- A predefined set of characters. -/
inductive CharacterClass where
  | any | digit | nonDigit | word | nonWord | whitespace | nonWhitespace | tab | newline | carriageReturn | formFeed
  | verticalTab | letter | lowercaseLetter | uppercaseLetter | letterOrDigit | hexDigit
  deriving DecidableEq

namespace CharacterClass

/-- Every predefined class, in table order. -/
def all : List CharacterClass :=
  [any, digit, nonDigit, word, nonWord, whitespace, nonWhitespace, tab, newline, carriageReturn, formFeed, verticalTab,
    letter, lowercaseLetter, uppercaseLetter, letterOrDigit, hexDigit]

/-- The name a configuration uses. -/
def name : CharacterClass → String
  | any => "Any"
  | digit => "Digit"
  | nonDigit => "NonDigit"
  | word => "Word"
  | nonWord => "NonWord"
  | whitespace => "Whitespace"
  | nonWhitespace => "NonWhitespace"
  | tab => "Tab"
  | newline => "Newline"
  | carriageReturn => "CarriageReturn"
  | formFeed => "FormFeed"
  | verticalTab => "VerticalTab"
  | letter => "Letter"
  | lowercaseLetter => "LowercaseLetter"
  | uppercaseLetter => "UppercaseLetter"
  | letterOrDigit => "LetterOrDigit"
  | hexDigit => "HexDigit"

/-- The token a regex uses. -/
def token : CharacterClass → String
  | any => "."
  | digit => "\\d"
  | nonDigit => "\\D"
  | word => "\\w"
  | nonWord => "\\W"
  | whitespace => "\\s"
  | nonWhitespace => "\\S"
  | tab => "\\t"
  | newline => "\\n"
  | carriageReturn => "\\r"
  | formFeed => "\\f"
  | verticalTab => "\\v"
  | letter => "[a-zA-Z]"
  | lowercaseLetter => "[a-z]"
  | uppercaseLetter => "[A-Z]"
  | letterOrDigit => "[a-zA-Z0-9]"
  | hexDigit => "[0-9a-fA-F]"

/-- The class of a name. -/
def ofName? (name : String) : Option CharacterClass := all.find? (fun c => c.name == name)

/-- The class of a token. -/
def ofToken? (token : String) : Option CharacterClass := all.find? (fun c => c.token == token)

/-- A bracket expression: an opening bracket first and a closing one last. What stands between them is not looked at. -/
def isBracketed (value : String) : Bool :=
  value.toList.head? == some '[' && value.toList.getLast? == some ']'

/-- The token a value stands for: a token or a bracket expression stands for itself, a name for the token of its class. -/
def tokenOf? (value : String) : Option String :=
  if (ofToken? value).isSome || isBracketed value then some value else (ofName? value).map token

/-- The names, for messages. -/
def names : String := ", ".intercalate (all.map name)

/-- The tokens, for messages. -/
def tokens : String := ", ".intercalate (all.map token)

end CharacterClass

end RegexTree
