import RegexTree.Compile
import RegexTree.Detect
import RegexTree.Json.Draft
import RegexTree.Json.Writer
import RegexTree.Yaml.Draft
import RegexTree.Yaml.Writer

/-!
# Patterns as text

Decoding reads drafts from a text and checks them; encoding writes the draft of a pattern. A text that is no document of its
format is refused before any identifier is drawn.
-/

namespace RegexTree

/-- The draft that a text of a format states. -/
def Draft.ofText? : Format → String → Option Draft
  | .json, text => Json.parse? Draft.read text
  | .yaml, text => Yaml.parse? Draft.read text

/-- The list of drafts that a text of a format states. -/
def Draft.listOfText? : Format → String → Option (List Draft)
  | .json, text => Json.parse? Draft.readList text
  | .yaml, text => Yaml.parse? Draft.readList text

/-- The text of a document in a format. JSON has two layouts, YAML one. -/
def Document.encode (document : Document) : Format → Json.Layout → String
  | .json, layout => Json.text layout document
  | .yaml, _ => Yaml.render document

namespace Pattern

variable {σ : Type}

/-- The pattern that a text of a known format states. -/
def decodeAs (ids : IdSource σ) (format : Format) (text : String) (s : σ) : Except Error Pattern × σ :=
  match Draft.ofText? format text with
  | none => (.error (.malformed (.unreadable format)), s)
  | some draft => draft.toPattern ids [] s

/-- The pattern that a text of either format states. -/
def decode (ids : IdSource σ) (text : String) (s : σ) : Except Error Pattern × σ :=
  match Format.detect text with
  | none => (.error (.malformed .neitherObjectNorMapping), s)
  | some format => decodeAs ids format text s

/-- The list of patterns that a text of a known format states. -/
def decodeListAs (ids : IdSource σ) (format : Format) (text : String) (s : σ) : Except Error (List Pattern) × σ :=
  match Draft.listOfText? format text with
  | none => (.error (.malformed (.unreadable format)), s)
  | some drafts => Draft.toPatternsFrom ids [] 0 drafts s

/-- The list of patterns that a text of either format states. -/
def decodeList (ids : IdSource σ) (text : String) (s : σ) : Except Error (List Pattern) × σ :=
  match Format.detectList text with
  | none => (.error (.malformed .neitherArrayNorList), s)
  | some format => decodeListAs ids format text s

/-- The text of a pattern. -/
def encode (format : Format) (layout : Json.Layout) (p : Pattern) : String := p.toDraft.toDocument.encode format layout

/-- The text of a list of patterns, in the compact layout. -/
def encodeList (format : Format) (ps : List Pattern) : String :=
  (Document.list (Draft.toDocuments (toDrafts ps))).encode format .compact

/-- The text of a pattern in another format, in the indented layout. -/
def convert (ids : IdSource σ) (target : Format) (text : String) (s : σ) : Except Error String × σ :=
  match decode ids text s with
  | (.ok p, s) => (.ok (p.encode target .indented), s)
  | (.error e, s) => (.error e, s)

/-- The regex that a text describes. -/
def compileText (ids : IdSource σ) (limit : Nat) (text : String) (s : σ) : Except Error String × σ :=
  match decode ids text s with
  | (.ok p, s) => (p.compile limit, s)
  | (.error e, s) => (.error e, s)

/-- The regex that a text describes as a list of patterns. -/
def compileListText (ids : IdSource σ) (limit : Nat) (text : String) (s : σ) : Except Error String × σ :=
  match decodeList ids text s with
  | (.ok ps, s) => (compileAll limit ps, s)
  | (.error e, s) => (.error e, s)

end Pattern

/-! ## Values as text -/

/-- The text has `part` in it. -/
def hasPart (part : List Char) : List Char → Bool
  | [] => part.isEmpty
  | c :: cs => part.isPrefixOf (c :: cs) || hasPart part cs

/-- What a value object states that is written in a format. -/
def DraftValue.ofText? (format : Format) (text : String) : Option DraftValue :=
  match format with
  | .json => (Json.parse? Draft.readValueObject text).join
  | .yaml => (Yaml.parse? Draft.readValueObject text).join

/-- The value of a text that may be a value object: the value it states, or else the text as it stands. -/
def Value.ofText (text : String) : Value :=
  let trimmed := Text.trim text.toList
  let stated :=
    if isEnclosed '\x7b' '\x7d' trimmed then DraftValue.ofText? .json (String.ofList trimmed)
    else if hasPart "Value:".toList trimmed then DraftValue.ofText? .yaml (String.ofList trimmed)
    else none
  match stated.map DraftValue.toValue with
  | some (.ok value) => value
  | _ => .literal text

end RegexTree
