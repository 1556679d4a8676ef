import RegexTree.Compile

/-!
# Arguments of the command line

Three commands, each with one input and some switches. Switches may stand before and behind the input, short ones may be
joined, and nothing may be given twice.
-/

namespace RegexTree.CommandLine

/-- What the program is asked to do with an input. -/
inductive Command where
  | compile (input : String) (list report : Bool) (limit : Nat)
  | convert (input : String) (target : Format)
  | check (input : String) (list : Bool)
  deriving DecidableEq

/-- What the program is asked for. -/
inductive Request where
  | run (command : Command)
  | version
  | help
  deriving DecidableEq

/-- A command by itself. -/
inductive Verb where
  | compile | convert | check
  deriving DecidableEq

/-- The verb of a word. -/
def Verb.ofWord? (word : String) : Option Verb :=
  if word = "compile" then some .compile
  else if word = "convert" then some .convert
  else if word = "check" then some .check
  else none

/-- A switch. -/
inductive Switch where
  | list | debug | maxDepth | target | help
  deriving DecidableEq

namespace Switch

/-- The switch of a long name. -/
def ofName? (name : String) : Option Switch :=
  if name = "list" then some list
  else if name = "debug" then some debug
  else if name = "max-depth" then some maxDepth
  else if name = "to" then some target
  else if name = "help" then some help
  else none

/-- The switch of a letter. -/
def ofLetter? (letter : Char) : Option Switch :=
  if letter = 'l' then some list
  else if letter = 'd' then some debug
  else if letter = 't' then some target
  else if letter = 'h' then some help
  else none

/-- A value follows the switch. -/
def takesValue : Switch → Bool
  | maxDepth | target => true
  | list | debug | help => false

/-- A command knows the switch. -/
def isKnownTo : Switch → Verb → Bool
  | list, verb => verb == .compile || verb == .check
  | debug, verb => verb == .compile
  | maxDepth, verb => verb == .compile
  | target, verb => verb == .convert
  | help, _ => true

end Switch

/-- What the arguments have given so far. -/
structure Given where
  input : Option String := none
  list : Bool := false
  debug : Bool := false
  limit : Option Nat := none
  target : Option Format := none

/-- Why reading arguments ends early. -/
inductive Stop where
  | usage
  | help
  deriving DecidableEq

/-- A number of at most 64 bits, with or without a plus. -/
def limitOf? (text : String) : Option Nat :=
  let digits :=
    match text.toList with
    | '+' :: rest => rest
    | cs => cs
  if digits.isEmpty || !digits.all Char.isDigit then none
  else
    let n := digits.foldl (fun n c => 10 * n + (c.toNat - '0'.toNat)) 0
    if n < UInt64.size then some n else none

/-- The format of a word. -/
def formatOf? (word : String) : Option Format :=
  if word = "json" then some .json else if word = "yaml" then some .yaml else none

namespace Given

/-- One more argument that is no switch. -/
def addInput (word : String) (g : Given) : Except Stop Given :=
  if g.input.isSome then .error .usage else .ok { g with input := some word }

/-- A switch without a value. -/
def setFlag (s : Switch) (g : Given) : Except Stop Given :=
  match s with
  | .list => if g.list then .error .usage else .ok { g with list := true }
  | .debug => if g.debug then .error .usage else .ok { g with debug := true }
  | .help => .error .help
  | .maxDepth | .target => .error .usage

/-- A switch with its value. -/
def setValue (s : Switch) (value : String) (g : Given) : Except Stop Given :=
  match s, limitOf? value, formatOf? value with
  | .maxDepth, some n, _ => if g.limit.isSome then .error .usage else .ok { g with limit := some n }
  | .target, _, some format => if g.target.isSome then .error .usage else .ok { g with target := some format }
  | _, _, _ => .error .usage

/-- The command that the arguments give. -/
def command? (g : Given) (verb : Verb) : Option Command := do
  let input ← g.input
  match verb with
  | .compile => if g.list && g.debug then none else return .compile input g.list g.debug (g.limit.getD defaultDepthLimit)
  | .convert => return .convert input (← g.target)
  | .check => return .check input g.list

end Given

/-- A switch a command knows. -/
def known (verb : Verb) (s : Option Switch) : Except Stop Switch :=
  match s with
  | some s => if s.isKnownTo verb then .ok s else .error .usage
  | none => .error .usage

/-- A long switch, with its value behind an equals sign or in the next argument. -/
def readLong (verb : Verb) (word : List Char) (g : Given) : Except Stop (Given × Option Switch) := do
  let s ← known verb (Switch.ofName? (String.ofList (word.takeWhile (· != '='))))
  match word.dropWhile (· != '='), s.takesValue with
  | _ :: value, true => return (← g.setValue s (String.ofList value), none)
  | _ :: _, false => .error .usage
  | [], true => return (g, some s)
  | [], false => return (← g.setFlag s, none)

/-- Short switches that are joined, the last of them with its value at once or in the next argument. -/
def readShort (verb : Verb) : List Char → Given → Except Stop (Given × Option Switch)
  | [], g => .ok (g, none)
  | letter :: rest, g => do
    let s ← known verb (Switch.ofLetter? letter)
    if s.takesValue then
      match rest with
      | [] => return (g, some s)
      | '=' :: value => return (← g.setValue s (String.ofList value), none)
      | value => return (← g.setValue s (String.ofList value), none)
    else readShort verb rest (← g.setFlag s)

/-- The arguments behind a command, where `awaited` is a switch that the next of them is the value of. Two dashes end the
switches. -/
def readArguments (verb : Verb) : (awaited : Option Switch) → List String → Given → Except Stop Given
  | none, [], g => .ok g
  | some _, [], _ => .error .usage
  | some s, word :: words, g => do
    match word.toList with
    | '-' :: _ => .error .usage
    | _ => readArguments verb none words (← g.setValue s word)
  | none, word :: words, g => do
    match word.toList with
    | ['-', '-'] => words.foldlM (fun g word => g.addInput word) g
    | '-' :: '-' :: name =>
      let (g, awaited) ← readLong verb name g
      readArguments verb awaited words g
    | '-' :: letter :: letters =>
      let (g, awaited) ← readShort verb (letter :: letters) g
      readArguments verb awaited words g
    | _ => readArguments verb none words (← g.addInput word)

/-- The words behind a call for help: nothing, or one command. -/
def isHelpTopic : List String → Bool
  | [] => true
  | [word] => (Verb.ofWord? word).isSome || word == "help"
  | _ => false

/-- What the arguments ask for, unless they are refused. -/
def Request.ofArguments? : List String → Option Request
  | [] => none
  | word :: words =>
    match Verb.ofWord? word with
    | some verb =>
      match readArguments verb none words {} with
      | .ok g => (g.command? verb).map .run
      | .error .help => some .help
      | .error .usage => none
    | none =>
      if word = "--version" || "-V".toList.isPrefixOf word.toList then some .version
      else if word = "--help" || "-h".toList.isPrefixOf word.toList then some .help
      else if word = "help" && isHelpTopic words then some .help
      else none

end RegexTree.CommandLine
